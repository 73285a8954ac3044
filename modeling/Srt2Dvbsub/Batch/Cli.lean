import Srt2Dvbsub.Batch.Resolve

/-!
# The batch command line

`main` (`srt2dvbsub.c`) takes the batch branch when `batch_encode_requested` finds
`--batch-encode` among the arguments: it fills the configuration with
`batch_encode_init_defaults`, parses the command line with `batch_encode_parse_cli`, and runs
`batch_encode_run` unless the parse returned `1`.

`batch_encode_parse_cli` (`batch_encode.c`) walks the arguments once. It consumes
`--batch-encode`, the four options with a value (`--batch-input`, `--batch-output`,
`--batch-srt`, `--batch-template`), each as `--key=value` or as `--key` followed by the value,
and the switches `--batch-clear-templates`, `--batch-dry-run` and `--batch-sequential`; every
other argument is forwarded to the encoder verbatim. The model walks the arguments with a fold
(`batchParseStep`) that remembers an option still waiting for its value (`pending`), which is
the `argv[++i]` of the source.

`batchEncodeParseCli_forward`: whatever the arguments, the forwarded ones are a sublist of the
command line and none of them is a batch option; when the parse succeeds and every value is
given as `--key=value`, they are exactly the arguments that are no batch option, in their
order.

Scope. An allocation that fails (`strdup` of a value or of a forwarded argument, the growth of
the template array) is left out.
-/

set_option autoImplicit false
set_option relaxedAutoImplicit false

namespace Srt2Dvbsub.Batch

/-! ### The model -/

/-- The fields of `BatchEncodeConfig` that `batch_encode_parse_cli` sets and `batch_encode_run`
reads (`none` for `NULL`). -/
structure BatchCli where
  inputDir : Option (List Char)
  outputDir : Option (List Char)
  srtDir : Option (List Char)
  templates : List BatchEncodeTemplate
  dryRun : Bool
  forwardArgs : List (List Char)

/-- `batch_encode_init_defaults`: everything zero, then the two default templates. -/
def batchEncodeInitDefaults : BatchCli := ⟨none, none, none, defaultTemplates, false, []⟩

/-- `batch_encode_requested(argc, argv)`. -/
def batchEncodeRequested (argv : List (List Char)) : Bool :=
  (argv.drop 1).any (· == "--batch-encode".toList)

/-- `match_eq_prefix(arg, key)`: the value after `key=`. -/
def matchEqPrefix (arg key : List Char) : Option (List Char) :=
  if key.isPrefixOf arg then
    match arg.drop key.length with
    | '=' :: value => some value
    | _ => none
  else none

/-- The options of `batch_encode_parse_cli` that take a value. -/
inductive BatchValueFlag where
  | input
  | output
  | srt
  | template
  deriving DecidableEq, Repr

/-- The option's name on the command line. -/
def BatchValueFlag.key : BatchValueFlag → List Char
  | .input => "--batch-input".toList
  | .output => "--batch-output".toList
  | .srt => "--batch-srt".toList
  | .template => "--batch-template".toList

/-- What an option does with its value: a directory replaces the one set before, and a template
entry is added by `batch_encode_add_template`, whose failure ends the parse with `1`. -/
def BatchValueFlag.apply : BatchValueFlag → BatchCli → List Char → Option BatchCli
  | .input, cfg, value => some { cfg with inputDir := some value }
  | .output, cfg, value => some { cfg with outputDir := some value }
  | .srt, cfg, value => some { cfg with srtDir := some value }
  | .template, cfg, value =>
    (batchEncodeAddTemplate value).map fun tpl ↦ { cfg with templates := cfg.templates ++ [tpl] }

/-- The options with a value, in the order the loop tests them. -/
def batchValueFlags : List BatchValueFlag := [.input, .output, .srt, .template]

/-- The first option with a value that an argument is, with the value it carries after `=`, or
`none` inside when the value is the next argument. -/
def valueFlagOf (arg : List Char) : Option (BatchValueFlag × Option (List Char)) :=
  batchValueFlags.findSome? fun flag ↦
    match matchEqPrefix arg flag.key with
    | some value => some (flag, some value)
    | none => if arg = flag.key then some (flag, none) else none

/-- The state of the loop: `saw_batch`, the configuration, the `forward` vector, and the option
whose value is the next argument. -/
structure BatchParseState where
  sawBatch : Bool
  cfg : BatchCli
  forward : List (List Char)
  pending : Option BatchValueFlag

/-- One argument of the loop of `batch_encode_parse_cli`; `none` for the `return 1` of an
invalid template. -/
def batchParseStep (st : BatchParseState) (arg : List Char) : Option BatchParseState :=
  match st.pending with
  | some flag => (flag.apply st.cfg arg).map fun cfg ↦ { st with cfg := cfg, pending := none }
  | none =>
    if arg = "--batch-encode".toList then some { st with sawBatch := true }
    else
      match valueFlagOf arg with
      | some (flag, some value) => (flag.apply st.cfg value).map fun cfg ↦ { st with cfg := cfg }
      | some (flag, none) => some { st with pending := some flag }
      | none =>
        if arg = "--batch-clear-templates".toList then
          some { st with cfg := { st.cfg with templates := [] } }
        else if arg = "--batch-dry-run".toList then
          some { st with cfg := { st.cfg with dryRun := true } }
        else if arg = "--batch-sequential".toList then some st
        else some { st with forward := st.forward ++ [arg] }

/-- `batch_encode_parse_cli(argc, argv, cfg)`: the return value and the configuration. After a
`1` the caller frees the configuration without reading it. -/
def batchEncodeParseCli (argv : List (List Char)) (cfg : BatchCli) : ℤ × BatchCli :=
  match (argv.drop 1).foldlM batchParseStep ⟨false, cfg, [], none⟩ with
  | none => (1, cfg)
  | some st =>
    match st.pending with
    -- an option with a value as the last argument: `if (i + 1 >= argc) return 1`
    | some _ => (1, st.cfg)
    | none =>
      if !st.sawBatch then (-1, st.cfg)
      else if st.cfg.inputDir.isNone || st.cfg.outputDir.isNone || st.cfg.srtDir.isNone then
        (1, st.cfg)
      else (-1, { st.cfg with forwardArgs := st.forward })

/-- The batch branch of `main`: `none` when the command line does not ask for batch mode and
`main` runs the single-file pipeline, else the exit status, with `batch_encode_run` as `run`. -/
def batchMain (argv : List (List Char)) (run : BatchCli → List Char → ℤ) : Option ℤ :=
  if !batchEncodeRequested argv then none
  else
    let parsed := batchEncodeParseCli argv batchEncodeInitDefaults
    if parsed.1 = 0 then some 0
    else if parsed.1 = 1 then some 1
    else some (run parsed.2 (argv.headD []))

/-! ### What is forwarded -/

/-- The switches the loop consumes without a value. -/
def batchSwitches : List (List Char) :=
  ["--batch-encode", "--batch-clear-templates", "--batch-dry-run", "--batch-sequential"].map
    String.toList

/-- An argument that is no batch option: the loop forwards it unless it is the value of an
option before it. -/
def isPlainArg (arg : List Char) : Bool :=
  !batchSwitches.contains arg && (valueFlagOf arg).isNone

/-- An argument that the loop tests against every option and switch without a match is
plain. -/
theorem isPlainArg_of_ne {arg : List Char} (hflag : valueFlagOf arg = none)
    (hencode : arg ≠ "--batch-encode".toList) (hclear : arg ≠ "--batch-clear-templates".toList)
    (hdry : arg ≠ "--batch-dry-run".toList) (hseq : arg ≠ "--batch-sequential".toList) :
    isPlainArg arg = true := by
  simpa [isPlainArg, batchSwitches, hflag] using ⟨hencode, hclear, hdry, hseq⟩

/-- What one argument does to the parts of the state that are not the configuration's
settings: the forwarded arguments grow by the argument when it is plain and no option waits for
it, `saw_batch` is set by `--batch-encode` in that position, and the loop never writes
`forward_args`. -/
theorem batchParseStep_spec {st st₁ : BatchParseState} {arg : List Char}
    (h : batchParseStep st arg = some st₁) :
    st₁.cfg.forwardArgs = st.cfg.forwardArgs ∧
      (st₁.forward = st.forward ∨
        (st₁.forward = st.forward ++ [arg] ∧ isPlainArg arg = true ∧ st.pending = none)) ∧
      (st.pending = none → st₁.sawBatch = (st.sawBatch || "--batch-encode".toList == arg)) := by
  have happly : ∀ (flag : BatchValueFlag) (cfg cfg₁ : BatchCli) (v : List Char),
      flag.apply cfg v = some cfg₁ → cfg₁.forwardArgs = cfg.forwardArgs := by
    intro flag cfg cfg₁ v happ
    cases flag with
    | template =>
      obtain ⟨tpl, -, rfl⟩ := Option.map_eq_some_iff.mp happ
      rfl
    | _ => obtain rfl := Option.some.inj happ; rfl
  unfold batchParseStep at h
  split at h
  · next flag hpending =>
    obtain ⟨cfg, happ, rfl⟩ := Option.map_eq_some_iff.mp h
    exact ⟨happly flag _ _ _ happ, .inl rfl, fun h ↦ absurd (hpending.symm.trans h) (by simp)⟩
  · next hpending =>
    by_cases hencode : arg = "--batch-encode".toList
    · rw [if_pos hencode] at h
      obtain rfl := Option.some.inj h
      exact ⟨rfl, .inl rfl, fun _ ↦ by simp [hencode]⟩
    · rw [if_neg hencode] at h
      have hsaw : (st.sawBatch || "--batch-encode".toList == arg) = st.sawBatch := by
        rw [beq_eq_false_iff_ne.mpr (Ne.symm hencode), Bool.or_false]
      split at h
      · next flag value hflag =>
        obtain ⟨cfg, happ, rfl⟩ := Option.map_eq_some_iff.mp h
        exact ⟨happly flag _ _ _ happ, .inl rfl, fun _ ↦ hsaw.symm⟩
      · obtain rfl := Option.some.inj h
        exact ⟨rfl, .inl rfl, fun _ ↦ hsaw.symm⟩
      · next hflag =>
        split_ifs at h with hclear hdry hseq <;> obtain rfl := Option.some.inj h
        · exact ⟨rfl, .inl rfl, fun _ ↦ hsaw.symm⟩
        · exact ⟨rfl, .inl rfl, fun _ ↦ hsaw.symm⟩
        · exact ⟨rfl, .inl rfl, fun _ ↦ hsaw.symm⟩
        · exact ⟨rfl, .inr ⟨rfl, isPlainArg_of_ne hflag hencode hclear hdry hseq, hpending⟩,
            fun _ ↦ hsaw.symm⟩

/-- With no option waiting, an argument that does not wait for a value leaves none waiting,
and is forwarded exactly when it is plain. -/
theorem batchParseStep_not_pending {st st₁ : BatchParseState} {arg : List Char}
    (hpending : st.pending = none) (hbare : ∀ flag, valueFlagOf arg ≠ some (flag, none))
    (h : batchParseStep st arg = some st₁) :
    st₁.pending = none ∧ st₁.forward = st.forward ++ (if isPlainArg arg then [arg] else []) := by
  unfold batchParseStep at h
  simp only [hpending] at h
  by_cases hencode : arg = "--batch-encode".toList
  · rw [if_pos hencode] at h
    obtain rfl := Option.some.inj h
    simp [isPlainArg, batchSwitches, hencode]
  · rw [if_neg hencode] at h
    split at h
    · next flag value hflag =>
      obtain ⟨cfg, -, rfl⟩ := Option.map_eq_some_iff.mp h
      simp [isPlainArg, hflag]
    · next flag hflag => exact absurd hflag (hbare flag)
    · next hflag =>
      split_ifs at h with hclear hdry hseq <;> obtain rfl := Option.some.inj h
      · simp [isPlainArg, batchSwitches, hclear]
      · simp [isPlainArg, batchSwitches, hdry]
      · simp [hpending, isPlainArg, batchSwitches, hseq]
      · simp [isPlainArg_of_ne hflag hencode hclear hdry hseq]

/-- The loop forwards a sublist of the arguments, none of them a batch option, and never writes
`forward_args`. -/
theorem foldlM_batchParseStep_forward :
    ∀ (args : List (List Char)) {st st' : BatchParseState},
      args.foldlM batchParseStep st = some st' →
        st'.cfg.forwardArgs = st.cfg.forwardArgs ∧
          ∃ fwd, st'.forward = st.forward ++ fwd ∧ fwd.Sublist args ∧ ∀ a ∈ fwd, isPlainArg a = true
  | [], st, st', h => by
    obtain rfl := Option.some.inj h
    exact ⟨rfl, [], by simp, List.Sublist.slnil, fun _ h ↦ absurd h List.not_mem_nil⟩
  | arg :: args, st, st', h => by
    rw [List.foldlM_cons] at h
    obtain ⟨st₁, hstep, hrest⟩ := Option.bind_eq_some_iff.mp h
    obtain ⟨hcfg₁, hfwd₁, -⟩ := batchParseStep_spec hstep
    obtain ⟨hcfg, fwd, hfwd, hsub, hplain⟩ := foldlM_batchParseStep_forward args hrest
    refine ⟨hcfg.trans hcfg₁, ?_⟩
    rcases hfwd₁ with hsame | ⟨hone, hargPlain, -⟩
    · exact ⟨fwd, by rw [hfwd, hsame], hsub.cons arg, hplain⟩
    · refine ⟨arg :: fwd, by rw [hfwd, hone, List.append_assoc, List.singleton_append],
        hsub.cons_cons arg, ?_⟩
      rintro a (_ | ⟨_, ha⟩)
      · exact hargPlain
      · exact hplain a ha

/-- With no option waiting for the next argument, the loop forwards exactly the plain arguments
and sees `--batch-encode` exactly when it is among them. -/
theorem foldlM_batchParseStep_forward_eq :
    ∀ (args : List (List Char)) {st st' : BatchParseState}, st.pending = none →
      (∀ a ∈ args, ∀ flag, valueFlagOf a ≠ some (flag, none)) →
      args.foldlM batchParseStep st = some st' →
        st'.pending = none ∧ st'.forward = st.forward ++ args.filter isPlainArg ∧
          st'.sawBatch = (st.sawBatch || args.contains "--batch-encode".toList)
  | [], st, st', hpending, _, h => by
    obtain rfl := Option.some.inj h
    exact ⟨hpending, by simp, by simp⟩
  | arg :: args, st, st', hpending, hbare, h => by
    rw [List.foldlM_cons] at h
    obtain ⟨st₁, hstep, hrest⟩ := Option.bind_eq_some_iff.mp h
    obtain ⟨hpending₁, hfwd₁⟩ := batchParseStep_not_pending hpending
      (hbare arg List.mem_cons_self) hstep
    have hsaw₁ := (batchParseStep_spec hstep).2.2 hpending
    obtain ⟨hpending', hfwd, hsaw⟩ := foldlM_batchParseStep_forward_eq args hpending₁
      (fun a ha ↦ hbare a (List.mem_cons_of_mem arg ha)) hrest
    refine ⟨hpending', ?_, ?_⟩
    · rw [hfwd, hfwd₁, List.filter_cons]
      split_ifs <;> simp
    · rw [hsaw, hsaw₁, List.contains_cons, Bool.or_assoc]

/-- After a loop that completes, the configuration keeps the `forward_args` it came with, or
takes the loop's `forward` vector (`strvec_detach`). -/
theorem batchEncodeParseCli_forwardArgs_of_foldlM {argv : List (List Char)} {cfg : BatchCli}
    {st : BatchParseState} (h : (argv.drop 1).foldlM batchParseStep ⟨false, cfg, [], none⟩ = some st) :
    (batchEncodeParseCli argv cfg).2.forwardArgs = st.cfg.forwardArgs ∨
      (batchEncodeParseCli argv cfg).2.forwardArgs = st.forward := by
  rw [batchEncodeParseCli, h]
  dsimp only
  split
  · exact .inl rfl
  · split_ifs
    · exact .inl rfl
    · exact .inl rfl
    · exact .inr rfl

/-- A loop that completes with `--batch-encode` seen and no option waiting: the parse fails
exactly when a directory is missing. -/
theorem batchEncodeParseCli_of_batch {argv : List (List Char)} {cfg : BatchCli}
    {st : BatchParseState} (h : (argv.drop 1).foldlM batchParseStep ⟨false, cfg, [], none⟩ = some st)
    (hpending : st.pending = none) (hsaw : st.sawBatch = true) :
    batchEncodeParseCli argv cfg =
      if st.cfg.inputDir.isNone || st.cfg.outputDir.isNone || st.cfg.srtDir.isNone then (1, st.cfg)
      else (-1, { st.cfg with forwardArgs := st.forward }) := by
  rw [batchEncodeParseCli, h]
  simp only [hpending, hsaw, Bool.not_true, Bool.false_eq_true, if_false]

/-- `batch_encode_parse_cli` from the defaults forwards a sublist of the arguments, none of them
a batch option; when it succeeds and every value is given as `--key=value`, it forwards exactly
the arguments that are no batch option, in their order. -/
theorem batchEncodeParseCli_forward (argv : List (List Char)) :
    (batchEncodeParseCli argv batchEncodeInitDefaults).2.forwardArgs.Sublist (argv.drop 1) ∧
      (∀ a ∈ (batchEncodeParseCli argv batchEncodeInitDefaults).2.forwardArgs, isPlainArg a = true) ∧
      ((∀ a ∈ argv.drop 1, ∀ flag, valueFlagOf a ≠ some (flag, none)) →
        "--batch-encode".toList ∈ argv.drop 1 →
        (batchEncodeParseCli argv batchEncodeInitDefaults).1 = -1 →
        (batchEncodeParseCli argv batchEncodeInitDefaults).2.forwardArgs =
          (argv.drop 1).filter isPlainArg) := by
  cases hfold : (argv.drop 1).foldlM batchParseStep ⟨false, batchEncodeInitDefaults, [], none⟩ with
  | none =>
    rw [batchEncodeParseCli, hfold]
    exact ⟨List.nil_sublist _, fun _ h ↦ absurd h List.not_mem_nil, fun _ _ h ↦ absurd h (by decide)⟩
  | some st =>
    obtain ⟨hcfg, fwd, hfwd, hsub, hplain⟩ := foldlM_batchParseStep_forward _ hfold
    have hnil : st.cfg.forwardArgs = [] := hcfg
    rw [List.nil_append] at hfwd
    refine ⟨?_, ?_, fun hbare hencode hrc ↦ ?_⟩
    · rcases batchEncodeParseCli_forwardArgs_of_foldlM hfold with h | h
      · rw [h, hnil]
        exact List.nil_sublist _
      · rwa [h, hfwd]
    · rcases batchEncodeParseCli_forwardArgs_of_foldlM hfold with h | h
      · rw [h, hnil]
        exact fun _ h ↦ absurd h List.not_mem_nil
      · rwa [h, hfwd]
    · obtain ⟨hpending, hfilter, hsaw⟩ := foldlM_batchParseStep_forward_eq _ rfl hbare hfold
      have hbatch : st.sawBatch = true := by
        rw [hsaw, Bool.false_or]
        exact List.contains_iff_mem.mpr hencode
      rw [batchEncodeParseCli_of_batch hfold hpending hbatch] at hrc ⊢
      split_ifs at hrc ⊢
      simpa using hfilter

/-- A command line that asks for batch mode with its three directories and forwards `-v`. -/
def batchArgvVerbose : List (List Char) :=
  ["srt2dvbsub", "--batch-encode", "--batch-input=in", "--batch-output=out", "--batch-srt=srt",
    "-v"].map String.toList

/-- With `-v` after the batch options, every value given as `--key=value`, the command line
forwarded to each encoder is `-v` alone. -/
theorem batchEncodeParseCli_forward_verbose :
    (batchEncodeParseCli batchArgvVerbose batchEncodeInitDefaults).2.forwardArgs = ["-v".toList] := by
  have hbare : ∀ a ∈ batchArgvVerbose.drop 1, ∀ flag, valueFlagOf a ≠ some (flag, none) := by
    intro a ha flag
    simp only [batchArgvVerbose, List.map_cons, List.map_nil, List.drop_succ_cons, List.drop_zero,
      List.mem_cons, List.not_mem_nil, or_false] at ha
    rcases ha with rfl | rfl | rfl | rfl | rfl <;> cases flag <;> decide
  have hforward := (batchEncodeParseCli_forward batchArgvVerbose).2.2 hbare (by decide) (by decide)
  rw [hforward]
  decide

end Srt2Dvbsub.Batch
