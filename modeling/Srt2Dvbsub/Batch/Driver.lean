import Srt2Dvbsub.Batch.Cli
import Srt2Dvbsub.Batch.Mirror
import Srt2Dvbsub.Batch.StrVec

/-!
# The batch driver

`batch_encode_run` (`batch_encode.c`) checks its directories, collects the `.ts` files under the
input root with `collect_ts_recursive`, sorts them with `qsort` and `compare_paths`, and handles
them in that order. For each file it computes the mirror paths, looks up the subtitles, creates
the output directory, builds the encoder's command line in a `StrVec`, and prints it
(`--batch-dry-run`) or runs `srt2dvbsub_run_cli` on it. After each file that got that far it
asks `srt2dvbsub_stop_requested()` and breaks on a stop. It counts the files `processed` and
`failed`, prints the two counts, and returns `0` exactly when none failed.

The model computes what happens to one file as a `FileOutcome` (`batchEncodeFile`) and runs the
loop, with its break, over the sorted files (`batchEncodeLoop`). The loop's `log` holds the
outcome of each file in turn: the line a dry run prints, or the encoder call and its result.

* `buildCommand_spec`: the pushes of the command block build the argument list `encoderArgs`,
  with a `NULL` after it; `dryRunLine_eq`: the dry run prints every argument but the last.
* `batchEncodeLoop_log`: the loop handles a prefix of the files, and stops short only after a
  file that reached the stop check while a stop was requested.
* `batchEncodeRun_files`: the files handled are a prefix of the walk's files sorted by
  `compare_paths`; all of them unless a stop was requested.
* `batchEncodeRun_encoderCalls`: every call of the encoder is for a file below the input root,
  after its mirror directory was created, with the program's name, the forwarded arguments, the
  file, its mirror path, and the subtitles the lookup found for the file's own name.
* `batchEncodeRun_dryRunLine`: the line of a dry run stops at `--languages`; the language list
  after it is never printed.

Scope. The file system, the `access` test of the subtitle lookup, the episode data, the encoder
and the stop flag enter as `BatchEnv`: functions the model queries, which nothing the driver does
changes (a directory `mkdir_p` creates is not seen by a later `dir_exists`). The stop flag is
read by the position of the file in the sorted list. Every allocation succeeds. `qsort` is
modelled by `List.mergeSort` with the same comparison; `compare_paths` orders paths linearly,
so the sorted list is the same. Paths are compared by character, which for UTF-8 is the byte
order of `strcmp`.
-/

set_option autoImplicit false
set_option relaxedAutoImplicit false

namespace Srt2Dvbsub.Batch

open CLib Cli

/-! ### The names of a path -/

/-- POSIX `basename(path)` (`<libgen.h>`): `.` for the empty path, the path itself when it holds
no `/`, `/` when it holds only slashes, else its last component without the slashes after it. -/
def basenamePosix (path : List Char) : List Char :=
  if path = [] then ['.']
  else if '/' ∉ path then path
  else
    let trimmed := path.rdropWhile (· == '/')
    if trimmed = [] then ['/'] else trimmed.rtakeWhile (· != '/')

/-- `strrchr(base, '.')` cut: the base name up to its last `.`. -/
def stripExt (base : List Char) : List Char :=
  if '.' ∈ base then (base.rdropWhile (· != '.')).dropLast else base

/-- `basename_no_ext(path)`. -/
def basenameNoExt (path : List Char) : List Char := stripExt (basenamePosix path)

/-- `compare_paths(a, b)`: `strcmp` of the two paths, character by character, a proper prefix
first. -/
def comparePaths (a b : List Char) : Ordering := compare a b

/-- `qsort(files.data, files.len, sizeof(char *), compare_paths)`. -/
def sortPaths (files : List (List Char)) : List (List Char) :=
  files.mergeSort fun a b ↦ comparePaths a b != .gt

/-! ### The command of one file -/

/-- The arguments the encoder gets for a file: the program's name, the forwarded arguments, and
the input, output, subtitle and language options. -/
def encoderArgs (argv0 : List Char) (forwardArgs : List (List Char))
    (tsPath outputPath srtList langList : List Char) : List (List Char) :=
  argv0 :: forwardArgs ++ ["--input".toList, tsPath, "--output".toList, outputPath,
    "--srt".toList, srtList, "--languages".toList, langList]

/-- The `do { ... } while (0)` block that builds the command in `cmd`, `none` for a `break`
before it is complete; every `strdup` and `realloc` succeeds. A failed push of a forwarded
argument breaks out of its loop and then fails the `cmd.len` check, which `foldlM` does at
once. -/
def buildCommand (argv0 : List Char) (forwardArgs : List (List Char))
    (tsPath outputPath srtList langList : List Char) : Option StrVec := do
  let cmd ← StrVec.empty.pushDup (some argv0) true true
  let cmd ← forwardArgs.foldlM (fun cmd arg ↦ cmd.pushDup (some arg) true true) cmd
  let cmd ← cmd.pushDup (some "--input".toList) true true
  let cmd ← cmd.pushDup (some tsPath) true true
  let cmd ← cmd.pushDup (some "--output".toList) true true
  let cmd ← cmd.pushDup (some outputPath) true true
  let cmd ← cmd.pushDup (some "--srt".toList) true true
  let cmd ← cmd.push (some srtList) true
  let cmd ← cmd.pushDup (some "--languages".toList) true true
  let cmd ← cmd.push (some langList) true
  cmd.pushNull true

/-- What the dry run prints: `[DRY RUN] `, then `cmd.data[i]` and a blank for every `i` with
`i + 1 < cmd.len`, then a newline. glibc prints a `NULL` string as `(null)`. -/
def dryRunLine (cmd : StrVec) : List Char :=
  "[DRY RUN] ".toList ++
    (List.range (cmd.len - 1)).flatMap (fun i ↦ (cmd.data.getD i none).getD "(null)".toList ++ [' ']) ++
    ['\n']

/-! ### One file -/

/-- What `batch_encode_run` queries: the tree the walk reads, `dir_exists`, `mkdir_p` (`true` for
`0`), the `access` test of the subtitle lookup, the episode data `parse_episode_meta` finds in a
base name, `srt2dvbsub_run_cli` on an argument vector, and `srt2dvbsub_stop_requested()` after
the file at a position of the sorted list. -/
structure BatchEnv where
  fs : DirTree
  dirExists : List Char → Bool
  mkdirP : List Char → Bool
  fileExists : List Char → Bool
  parseEpisodeMeta : List Char → EpisodeMeta
  runCli : List (Option (List Char)) → ℤ
  stopRequested : ℕ → Bool

/-- What `batch_encode_run` does with one file. -/
inductive FileOutcome where
  /-- outside the input root, or no relative directory: `failed++` -/
  | noPaths
  /-- `Skipping: no subtitles matched`, counted neither way -/
  | noSubtitles
  /-- `mkdir_p(rel_output)` failed: `failed++` -/
  | mkdirFailed
  /-- the command block broke: `encode_rc = -1` -/
  | commandFailed
  /-- the `[DRY RUN]` line printed: `encode_rc = 0` -/
  | dryRun (line : List Char)
  /-- `srt2dvbsub_run_cli(cmd.len, cmd.data)` and its return value -/
  | encoded (argv : List (Option (List Char))) (rc : ℤ)
  deriving DecidableEq, Repr

/-- `encode_rc` of a file that reached the command block, after which the loop asks for a stop;
`none` for a file the loop left with `continue` before. -/
def FileOutcome.encodeRc : FileOutcome → Option ℤ
  | .commandFailed => some (-1)
  | .dryRun _ => some 0
  | .encoded _ rc => some rc
  | _ => none

/-- Counted in `processed`: `encode_rc == 0`. -/
def FileOutcome.isProcessed (o : FileOutcome) : Bool := o.encodeRc == some 0

/-- Counted in `failed`. -/
def FileOutcome.isFailed : FileOutcome → Bool
  | .noPaths => true
  | .noSubtitles => false
  | .mkdirFailed => true
  | .commandFailed => true
  | .dryRun _ => false
  | .encoded _ rc => rc != 0

/-- The body of the loop of `batch_encode_run` for `ts_path`, up to the stop check. -/
def batchEncodeFile (env : BatchEnv) (cfg : BatchCli) (inputDir outputDir srtDir argv0 tsPath : List Char) :
    FileOutcome :=
  match batchEncodeRunPaths inputDir outputDir tsPath with
  | none => .noPaths
  | some paths =>
    match resolveSubtitlesForTs ⟨srtDir, cfg.templates⟩ env.parseEpisodeMeta env.fileExists
        paths.relDir (dirname tsPath) (basenameNoExt tsPath) with
    | none => .noSubtitles
    | some (srts, langs) =>
      if !cfg.dryRun && !env.mkdirP paths.relOutput then .mkdirFailed
      else
        match buildCommand argv0 cfg.forwardArgs tsPath paths.outputPath (strvecJoin srts ',')
            (strvecJoin langs ',') with
        | none => .commandFailed
        | some cmd =>
          if cfg.dryRun then .dryRun (dryRunLine cmd) else .encoded cmd.items (env.runCli cmd.items)

/-! ### The loop -/

/-- The counters of `batch_encode_run`, and what it has done with each file so far. -/
structure BatchRunState where
  processed : ℕ
  failed : ℕ
  log : List (List Char × FileOutcome)
  deriving DecidableEq, Repr

/-- Nothing counted, nothing done. -/
def BatchRunState.init : BatchRunState := ⟨0, 0, []⟩

/-- A file counted and recorded. -/
def BatchRunState.record (st : BatchRunState) (tsPath : List Char) (o : FileOutcome) :
    BatchRunState :=
  ⟨st.processed + (if o.isProcessed then 1 else 0), st.failed + (if o.isFailed then 1 else 0),
    st.log ++ [(tsPath, o)]⟩

/-- The `for` loop of `batch_encode_run` over the files from position `i`. -/
def batchEncodeLoop (fileOutcome : List Char → FileOutcome) (stopRequested : ℕ → Bool) :
    ℕ → List (List Char) → BatchRunState → BatchRunState
  | _, [], st => st
  | i, tsPath :: rest, st =>
    let o := fileOutcome tsPath
    -- only a file that reached the command block gets to the stop check; `interrupted` is never
    -- set on the other paths, so their `if (interrupted) break;` does nothing
    if o.encodeRc.isSome && stopRequested i then st.record tsPath o
    else batchEncodeLoop fileOutcome stopRequested (i + 1) rest (st.record tsPath o)

/-- `batch_encode_run(cfg, argv0)`: the return value and the loop's state, or `none` when the
walk runs out of `fuel`. -/
def batchEncodeRun (env : BatchEnv) (fuel : ℕ) (cfg : BatchCli) (argv0 : List Char) :
    Option (ℤ × BatchRunState) :=
  match cfg.inputDir, cfg.outputDir, cfg.srtDir with
  | some inputDir, some outputDir, some srtDir =>
    if !env.dirExists inputDir then some (1, .init)
    else if !env.dirExists srtDir then some (1, .init)
    else if !cfg.dryRun && !env.mkdirP outputDir then some (1, .init)
    else
      (collectTsRecursive env.fs fuel inputDir []).map fun
        | none => (1, .init)
        | some files =>
          if files.isEmpty then (0, .init)
          else
            let st := batchEncodeLoop (batchEncodeFile env cfg inputDir outputDir srtDir argv0)
              env.stopRequested 0 (sortPaths files) .init
            (if st.failed = 0 then 0 else 1, st)
  | _, _, _ => some (1, .init)

/-! ### Names and order -/

/-- The part of a path before its last name is empty or ends with `/`. -/
theorem getLast?_dirPrefix (dir : List Char) :
    (dirPrefix dir).getLast? = none ∨ (dirPrefix dir).getLast? = some '/' := by
  unfold dirPrefix needsSep
  rcases hlast : dir.getLast? with _ | c
  · exact .inl (by simpa using hlast)
  · by_cases hc : c = '/'
    · exact .inr (by simp [hc, hlast])
    · exact .inr (by simp [hc])

/-- The base name of a name after a part that is empty or ends with `/` is the name. -/
theorem basenamePosix_append_name {pre : List Char} (e : DirEntryName)
    (hpre : pre.getLast? = none ∨ pre.getLast? = some '/') : basenamePosix (pre ++ e.name) = e.name := by
  have hpath : pre ++ e.name ≠ [] := List.append_ne_nil_of_right_ne_nil pre e.name_ne_nil
  unfold basenamePosix
  rw [if_neg hpath]
  by_cases hslash : '/' ∈ pre ++ e.name
  · rw [if_neg (not_not_intro hslash)]
    obtain ⟨init, c, hc, hne⟩ := e.eq_concat
    have htrim : (pre ++ e.name).rdropWhile (· == '/') = pre ++ e.name := by
      rw [hc, ← List.append_assoc, List.rdropWhile_concat_neg _ _ _ (by simpa using hne)]
    simp only [htrim, if_neg hpath]
    refine Lib.rtakeWhile_append_of_forall pre e.name (fun a ha ↦ ?_) fun x hx ↦ ?_
    · simpa using ne_of_mem_of_not_mem ha e.slash_not_mem
    · rcases hpre with hnone | hlast
      · exact absurd (hnone ▸ hx) (by simp)
      · rw [hlast] at hx
        simp [← Option.some.inj hx]
  · rw [if_pos hslash]
    rcases hpre with hnone | hlast
    · rw [List.getLast?_eq_none_iff.mp hnone, List.nil_append]
    · exact absurd (List.mem_append_left e.name (List.mem_of_getLast? hlast)) hslash

/-- The base name of a path below a root is the last name on the way. -/
theorem basenamePosix_pathUnder (root : List Char) (dirs : List DirEntryName) (e : DirEntryName) :
    basenamePosix (pathUnder root (dirs ++ [e])) = e.name := by
  rw [pathUnder_concat, pathJoin3_name]
  exact basenamePosix_append_name e (getLast?_dirPrefix _)

/-- The last argument of the command is the language list. -/
theorem encoderArgs_eq_concat (argv0 : List Char) (forwardArgs : List (List Char))
    (tsPath outputPath srtList langList : List Char) :
    encoderArgs argv0 forwardArgs tsPath outputPath srtList langList =
      (argv0 :: forwardArgs ++ ["--input".toList, tsPath, "--output".toList, outputPath,
        "--srt".toList, srtList, "--languages".toList]) ++ [langList] := by
  simp [encoderArgs]

/-- The pushes of the command block build the argument list, with a `NULL` after it. -/
theorem buildCommand_spec (argv0 : List Char) (forwardArgs : List (List Char))
    (tsPath outputPath srtList langList : List Char) :
    ∃ cmd, buildCommand argv0 forwardArgs tsPath outputPath srtList langList = some cmd ∧
      StrVecInv cmd ∧
      cmd.items = (encoderArgs argv0 forwardArgs tsPath outputPath srtList langList).map some ∧
      cmd.data.getD cmd.len none = none := by
  obtain ⟨c₀, h₀, hinv₀, hitems₀⟩ := strVecInv_empty.push_true (some argv0)
  obtain ⟨c₁, h₁, hinv₁, hitems₁⟩ := hinv₀.foldlM_pushDup forwardArgs
  obtain ⟨c₂, h₂, hinv₂, hitems₂⟩ := hinv₁.push_true (some "--input".toList)
  obtain ⟨c₃, h₃, hinv₃, hitems₃⟩ := hinv₂.push_true (some tsPath)
  obtain ⟨c₄, h₄, hinv₄, hitems₄⟩ := hinv₃.push_true (some "--output".toList)
  obtain ⟨c₅, h₅, hinv₅, hitems₅⟩ := hinv₄.push_true (some outputPath)
  obtain ⟨c₆, h₆, hinv₆, hitems₆⟩ := hinv₅.push_true (some "--srt".toList)
  obtain ⟨c₇, h₇, hinv₇, hitems₇⟩ := hinv₆.push_true (some srtList)
  obtain ⟨c₈, h₈, hinv₈, hitems₈⟩ := hinv₇.push_true (some "--languages".toList)
  obtain ⟨c₉, h₉, hinv₉, hitems₉⟩ := hinv₈.push_true (some langList)
  obtain ⟨cmd, hnull, hinv, hitems, hslot⟩ := hinv₉.pushNull_true
  refine ⟨cmd, ?_, hinv, ?_, hslot⟩
  · simp only [buildCommand, StrVec.pushDup_some_true] at h₁ ⊢
    simp only [h₀, h₁, h₂, h₃, h₄, h₅, h₆, h₇, h₈, h₉, hnull, Option.bind_eq_bind, Option.bind_some]
  · rw [hitems, hitems₉, hitems₈, hitems₇, hitems₆, hitems₅, hitems₄, hitems₃, hitems₂, hitems₁,
      hitems₀]
    simp [encoderArgs, StrVec.items, StrVec.empty]

/-- The dry run prints every argument of the command but the last. -/
theorem dryRunLine_eq {cmd : StrVec} {args : List (List Char)} (hinv : StrVecInv cmd)
    (hitems : cmd.items = args.map some) :
    dryRunLine cmd = "[DRY RUN] ".toList ++ args.dropLast.flatMap (· ++ [' ']) ++ ['\n'] := by
  have hlen : cmd.len = args.length := by rw [← hinv.length_items, hitems, List.length_map]
  have hslots : ∀ i ∈ List.range (cmd.len - 1),
      (cmd.data.getD i none).getD "(null)".toList ++ [' '] = args.dropLast.getD i [] ++ [' '] := by
    intro i hi
    have hi' : i < args.length - 1 := by rw [← hlen]; exact List.mem_range.mp hi
    rw [cmd.getD_data (by omega), hitems, List.getD_eq_getElem _ _ (by simp; omega),
      List.getD_eq_getElem _ _ (by simp; omega), List.getElem_map, List.getElem_dropLast,
      Option.getD_some]
  have hbody : (List.range (cmd.len - 1)).flatMap
      (fun i ↦ (cmd.data.getD i none).getD "(null)".toList ++ [' ']) =
      args.dropLast.flatMap (· ++ [' ']) := by
    rw [List.flatMap_congr hslots, hlen, ← List.length_dropLast,
      Lib.flatMap_range_getD (· ++ [' ']) [] args.dropLast]
  unfold dryRunLine
  rw [hbody]

/-! ### One file -/

section File

variable {env : BatchEnv} {cfg : BatchCli} {inputDir outputDir srtDir argv0 tsPath : List Char}

/-- A file that reaches the command block has its mirror paths, subtitles found for it, an output
directory created unless the run is dry, and the command built for it, printed or run. -/
theorem batchEncodeFile_of_encodeRc
    (hrc : (batchEncodeFile env cfg inputDir outputDir srtDir argv0 tsPath).encodeRc.isSome) :
    ∃ paths srts langs cmd, batchEncodeRunPaths inputDir outputDir tsPath = some paths ∧
      resolveSubtitlesForTs ⟨srtDir, cfg.templates⟩ env.parseEpisodeMeta env.fileExists
        paths.relDir (dirname tsPath) (basenameNoExt tsPath) = some (srts, langs) ∧
      (cfg.dryRun = false → env.mkdirP paths.relOutput = true) ∧
      buildCommand argv0 cfg.forwardArgs tsPath paths.outputPath (strvecJoin srts ',')
        (strvecJoin langs ',') = some cmd ∧
      batchEncodeFile env cfg inputDir outputDir srtDir argv0 tsPath =
        if cfg.dryRun then .dryRun (dryRunLine cmd) else .encoded cmd.items (env.runCli cmd.items) := by
  unfold batchEncodeFile at hrc ⊢
  split at hrc
  · exact absurd hrc (by simp [FileOutcome.encodeRc])
  · next paths hpaths =>
    split at hrc
    · exact absurd hrc (by simp [FileOutcome.encodeRc])
    · next srts langs hres =>
      by_cases hmk : (!cfg.dryRun && !env.mkdirP paths.relOutput) = true
      · rw [if_pos hmk] at hrc
        exact absurd hrc (by simp [FileOutcome.encodeRc])
      · obtain ⟨cmd, hcmd, -⟩ := buildCommand_spec argv0 cfg.forwardArgs tsPath paths.outputPath
          (strvecJoin srts ',') (strvecJoin langs ',')
        refine ⟨paths, srts, langs, cmd, hpaths, hres, fun hdry ↦ by simpa [hdry] using hmk, hcmd, ?_⟩
        simp only [if_neg hmk, hcmd]

end File

/-! ### The loop -/

section Loop

variable (fileOutcome : List Char → FileOutcome) (stopRequested : ℕ → Bool)

theorem batchEncodeLoop_cons (i : ℕ) (tsPath : List Char) (rest : List (List Char))
    (st : BatchRunState) :
    batchEncodeLoop fileOutcome stopRequested i (tsPath :: rest) st =
      if (fileOutcome tsPath).encodeRc.isSome && stopRequested i then
        st.record tsPath (fileOutcome tsPath)
      else batchEncodeLoop fileOutcome stopRequested (i + 1) rest (st.record tsPath (fileOutcome tsPath)) :=
  rfl

/-- The loop over `files` from position `i` records a prefix of them, each with its outcome, in
order: all of them, or up to a file that reached the stop check while a stop was requested. -/
theorem batchEncodeLoop_log : ∀ (files : List (List Char)) (i : ℕ) (st : BatchRunState),
    ∃ k ≤ files.length,
      (batchEncodeLoop fileOutcome stopRequested i files st).log =
        st.log ++ (files.take k).map (fun ts ↦ (ts, fileOutcome ts)) ∧
      (k < files.length → 0 < k ∧ (fileOutcome (files.getD (k - 1) [])).encodeRc.isSome ∧
        stopRequested (i + (k - 1)) = true)
  | [], _, st => ⟨0, le_rfl, by simp [batchEncodeLoop], fun h ↦ absurd h (Nat.lt_irrefl 0)⟩
  | ts :: rest, i, st => by
    rw [batchEncodeLoop_cons]
    by_cases hbreak : ((fileOutcome ts).encodeRc.isSome && stopRequested i) = true
    · rw [if_pos hbreak]
      refine ⟨1, by simp, by simp [BatchRunState.record], fun _ ↦ ⟨Nat.one_pos, ?_⟩⟩
      simpa using hbreak
    · rw [if_neg hbreak]
      obtain ⟨k, hk, hlog, hstop⟩ :=
        batchEncodeLoop_log rest (i + 1) (st.record ts (fileOutcome ts))
      refine ⟨k + 1, by simpa using hk, by rw [hlog]; simp [BatchRunState.record], fun hlt ↦ ?_⟩
      obtain ⟨hpos, hrc, hstopped⟩ := hstop (by simpa using hlt)
      obtain ⟨j, rfl⟩ : ∃ j, k = j + 1 := ⟨k - 1, by omega⟩
      refine ⟨Nat.succ_pos _, by simpa using hrc, ?_⟩
      rw [show i + (j + 1 + 1 - 1) = i + 1 + (j + 1 - 1) by omega]
      exact hstopped

end Loop

/-! ### The run -/

section Run

variable {env : BatchEnv} {fuel : ℕ} {cfg : BatchCli} {argv0 : List Char} {ret : ℤ}
  {st : BatchRunState}

/-- A run returns early with nothing done, or runs the loop over the files its walk collected,
sorted, and returns `0` exactly when none failed. -/
theorem batchEncodeRun_eq_some (h : batchEncodeRun env fuel cfg argv0 = some (ret, st)) :
    (st = .init ∧ (ret = 0 ∨ ret = 1)) ∨
      ∃ inputDir outputDir srtDir files, cfg.inputDir = some inputDir ∧
        cfg.outputDir = some outputDir ∧ cfg.srtDir = some srtDir ∧
        collectTsRecursive env.fs fuel inputDir [] = some (some files) ∧
        st = batchEncodeLoop (batchEncodeFile env cfg inputDir outputDir srtDir argv0)
          env.stopRequested 0 (sortPaths files) .init ∧
        ret = if st.failed = 0 then 0 else 1 := by
  unfold batchEncodeRun at h
  split at h
  · next inputDir outputDir srtDir hin hout hsrt =>
    split_ifs at h
    · obtain ⟨rfl, rfl⟩ := Prod.mk.inj (Option.some.inj h)
      exact .inl ⟨rfl, .inr rfl⟩
    · obtain ⟨rfl, rfl⟩ := Prod.mk.inj (Option.some.inj h)
      exact .inl ⟨rfl, .inr rfl⟩
    · obtain ⟨rfl, rfl⟩ := Prod.mk.inj (Option.some.inj h)
      exact .inl ⟨rfl, .inr rfl⟩
    · obtain ⟨walk, hwalk, hres⟩ := Option.map_eq_some_iff.mp h
      rcases walk with _ | files
      · obtain ⟨rfl, rfl⟩ := Prod.mk.inj hres
        exact .inl ⟨rfl, .inr rfl⟩
      · dsimp only at hres
        by_cases hempty : files.isEmpty = true
        · rw [if_pos hempty] at hres
          obtain ⟨rfl, rfl⟩ := Prod.mk.inj hres
          exact .inl ⟨rfl, .inl rfl⟩
        · rw [if_neg hempty] at hres
          obtain ⟨rfl, rfl⟩ := Prod.mk.inj hres
          exact .inr ⟨inputDir, outputDir, srtDir, files, hin, hout, hsrt, hwalk, rfl, rfl⟩
  · obtain ⟨rfl, rfl⟩ := Prod.mk.inj (Option.some.inj h)
    exact .inl ⟨rfl, .inr rfl⟩

/-- A run whose checks pass and whose walk finds files runs the loop over them, sorted. -/
theorem batchEncodeRun_of_collect {inputDir outputDir srtDir : List Char} {files : List (List Char)}
    (hin : cfg.inputDir = some inputDir) (hout : cfg.outputDir = some outputDir)
    (hsrt : cfg.srtDir = some srtDir) (hinExists : env.dirExists inputDir = true)
    (hsrtExists : env.dirExists srtDir = true) (hmkdir : env.mkdirP outputDir = true)
    (hwalk : collectTsRecursive env.fs fuel inputDir [] = some (some files)) (hne : files ≠ []) :
    batchEncodeRun env fuel cfg argv0 =
      some (if (batchEncodeLoop (batchEncodeFile env cfg inputDir outputDir srtDir argv0)
          env.stopRequested 0 (sortPaths files) .init).failed = 0 then 0 else 1,
        batchEncodeLoop (batchEncodeFile env cfg inputDir outputDir srtDir argv0)
          env.stopRequested 0 (sortPaths files) .init) := by
  simp [batchEncodeRun, hin, hout, hsrt, hinExists, hsrtExists, hmkdir, hwalk, hne]

/-- An entry of the log is a file the walk collected, with the outcome the loop's body gives
it. -/
theorem batchEncodeRun_mem_log (h : batchEncodeRun env fuel cfg argv0 = some (ret, st))
    {tsPath : List Char} {o : FileOutcome} (he : (tsPath, o) ∈ st.log) :
    ∃ inputDir outputDir srtDir files, cfg.inputDir = some inputDir ∧
      cfg.outputDir = some outputDir ∧ cfg.srtDir = some srtDir ∧
      collectTsRecursive env.fs fuel inputDir [] = some (some files) ∧ tsPath ∈ files ∧
      o = batchEncodeFile env cfg inputDir outputDir srtDir argv0 tsPath := by
  rcases batchEncodeRun_eq_some h with ⟨rfl, -⟩ | ⟨inputDir, outputDir, srtDir, files, hin, hout, hsrt, hwalk, rfl, -⟩
  · exact absurd he List.not_mem_nil
  · obtain ⟨k, -, hlog, -⟩ := batchEncodeLoop_log (batchEncodeFile env cfg inputDir outputDir srtDir argv0)
      env.stopRequested (sortPaths files) 0 .init
    rw [hlog] at he
    simp only [BatchRunState.init, List.nil_append] at he
    obtain ⟨ts, hts, hentry⟩ := List.mem_map.mp he
    obtain ⟨rfl, rfl⟩ := Prod.mk.inj hentry
    exact ⟨inputDir, outputDir, srtDir, files, hin, hout, hsrt, hwalk,
      List.mem_mergeSort.mp (List.mem_of_mem_take hts), rfl⟩

/-- A file of the log that reached the command block is below the input root; its mirror
directory was created unless the run is dry, the subtitles were found for its own name, and the
command was built for its mirror path. -/
theorem batchEncodeRun_reached (h : batchEncodeRun env fuel cfg argv0 = some (ret, st))
    {tsPath : List Char} {o : FileOutcome} (he : (tsPath, o) ∈ st.log) (hrc : o.encodeRc.isSome) :
    ∃ inputDir outputDir srtDir dirs name srts langs cmd,
      cfg.inputDir = some inputDir ∧ cfg.outputDir = some outputDir ∧ cfg.srtDir = some srtDir ∧
      tsPath = pathUnder inputDir (dirs ++ [name]) ∧
      (cfg.dryRun = false → env.mkdirP (pathUnder outputDir dirs) = true) ∧
      resolveSubtitlesForTs ⟨srtDir, cfg.templates⟩ env.parseEpisodeMeta env.fileExists
        (joinNames dirs) (dirname tsPath) (stripExt name.name) = some (srts, langs) ∧
      buildCommand argv0 cfg.forwardArgs tsPath (pathUnder outputDir (dirs ++ [name]))
        (joinCommas srts) (joinCommas langs) = some cmd ∧
      o = if cfg.dryRun then .dryRun (dryRunLine cmd) else .encoded cmd.items (env.runCli cmd.items) := by
  obtain ⟨inputDir, outputDir, srtDir, files, hin, hout, hsrt, hwalk, hmem, rfl⟩ :=
    batchEncodeRun_mem_log h he
  obtain ⟨dirs, name, rfl, hreal⟩ := collectTsRecursive_files hwalk _ hmem
  have hroot : inputDir ≠ [] := by
    rintro rfl
    exact collectTsRecursive_nil_root fuel [] files hwalk
  obtain ⟨paths, srts, langs, cmd, hpaths, hres, hmk, hcmd, hfile⟩ := batchEncodeFile_of_encodeRc hrc
  rw [batchEncodeRunPaths_pathUnder outputDir hroot hreal] at hpaths
  obtain rfl := Option.some.inj hpaths
  have hne : dirs ++ [name] ≠ [] := by simp
  refine ⟨inputDir, outputDir, srtDir, dirs, name, srts, langs, cmd, hin, hout, hsrt, rfl, ?_, ?_,
    ?_, hfile⟩
  · rw [← pathJoin3_joinNames_nil]
    exact hmk
  · rw [basenameNoExt, basenamePosix_pathUnder] at hres
    exact hres
  · rw [pathUnder_eq_pathJoin3 outputDir hne, ← strvecJoin_comma, ← strvecJoin_comma]
    exact hcmd

end Run

/-! ### What a run does -/

section Run

variable {env : BatchEnv} {fuel : ℕ} {cfg : BatchCli} {argv0 : List Char} {ret : ℤ}
  {st : BatchRunState}

/-- Every call of the encoder is for a file below the input root, made without
`--batch-dry-run`, after the file's mirror directory was created. It gets the program's name,
the forwarded arguments, the file, the file's mirror path below the output root, and the
subtitles and languages the lookup found for the file's own name, each list joined with `,`; its
result is the one recorded. -/
theorem batchEncodeRun_encoderCalls (h : batchEncodeRun env fuel cfg argv0 = some (ret, st))
    {tsPath : List Char} {argv : List (Option (List Char))} {rc : ℤ}
    (he : (tsPath, FileOutcome.encoded argv rc) ∈ st.log) :
    cfg.dryRun = false ∧ rc = env.runCli argv ∧
      ∃ inputDir outputDir srtDir dirs name srts langs,
        cfg.inputDir = some inputDir ∧ cfg.outputDir = some outputDir ∧ cfg.srtDir = some srtDir ∧
        tsPath = pathUnder inputDir (dirs ++ [name]) ∧ env.mkdirP (pathUnder outputDir dirs) = true ∧
        resolveSubtitlesForTs ⟨srtDir, cfg.templates⟩ env.parseEpisodeMeta env.fileExists
          (joinNames dirs) (dirname tsPath) (stripExt name.name) = some (srts, langs) ∧
        argv = (encoderArgs argv0 cfg.forwardArgs tsPath (pathUnder outputDir (dirs ++ [name]))
          (joinCommas srts) (joinCommas langs)).map some := by
  obtain ⟨inputDir, outputDir, srtDir, dirs, name, srts, langs, cmd, hin, hout, hsrt, hts, hmk,
    hres, hcmd, hentry⟩ := batchEncodeRun_reached h he rfl
  obtain ⟨cmd', hcmd', -, hitems, -⟩ := buildCommand_spec argv0 cfg.forwardArgs tsPath
    (pathUnder outputDir (dirs ++ [name])) (joinCommas srts) (joinCommas langs)
  obtain rfl : cmd = cmd' := Option.some.inj (hcmd.symm.trans hcmd')
  cases hdry : cfg.dryRun
  · rw [hdry, if_neg Bool.false_ne_true] at hentry
    obtain ⟨rfl, rfl⟩ := FileOutcome.encoded.inj hentry
    exact ⟨rfl, rfl, inputDir, outputDir, srtDir, dirs, name, srts, langs, hin, hout, hsrt, hts,
      hmk hdry, hres, hitems⟩
  · rw [hdry, if_pos rfl] at hentry
    exact absurd hentry FileOutcome.noConfusion

/-- The line a dry run prints for a file holds the program's name, the forwarded arguments, the
file, its mirror path and the subtitles found, and ends at `--languages`: the language list the
command would carry after it is never printed. -/
theorem batchEncodeRun_dryRunLine (h : batchEncodeRun env fuel cfg argv0 = some (ret, st))
    {tsPath line : List Char} (he : (tsPath, FileOutcome.dryRun line) ∈ st.log) :
    cfg.dryRun = true ∧
      ∃ inputDir outputDir srtDir dirs name srts langs,
        cfg.inputDir = some inputDir ∧ cfg.outputDir = some outputDir ∧ cfg.srtDir = some srtDir ∧
        tsPath = pathUnder inputDir (dirs ++ [name]) ∧
        resolveSubtitlesForTs ⟨srtDir, cfg.templates⟩ env.parseEpisodeMeta env.fileExists
          (joinNames dirs) (dirname tsPath) (stripExt name.name) = some (srts, langs) ∧
        line = "[DRY RUN] ".toList ++
          (argv0 :: cfg.forwardArgs ++ ["--input".toList, tsPath, "--output".toList,
            pathUnder outputDir (dirs ++ [name]), "--srt".toList, joinCommas srts,
            "--languages".toList]).flatMap (· ++ [' ']) ++ ['\n'] := by
  obtain ⟨inputDir, outputDir, srtDir, dirs, name, srts, langs, cmd, hin, hout, hsrt, hts, -,
    hres, hcmd, hentry⟩ := batchEncodeRun_reached h he rfl
  obtain ⟨cmd', hcmd', hinv, hitems, -⟩ := buildCommand_spec argv0 cfg.forwardArgs tsPath
    (pathUnder outputDir (dirs ++ [name])) (joinCommas srts) (joinCommas langs)
  obtain rfl : cmd = cmd' := Option.some.inj (hcmd.symm.trans hcmd')
  cases hdry : cfg.dryRun
  · rw [hdry, if_neg Bool.false_ne_true] at hentry
    exact absurd hentry FileOutcome.noConfusion
  · rw [hdry, if_pos rfl] at hentry
    obtain rfl := FileOutcome.dryRun.inj hentry
    refine ⟨rfl, inputDir, outputDir, srtDir, dirs, name, srts, langs, hin, hout, hsrt, hts, hres, ?_⟩
    rw [dryRunLine_eq hinv hitems, encoderArgs_eq_concat, List.dropLast_concat]

end Run

/-! ### A run over one file -/

/-- An input root `in` that holds `e1.ts`, with the subtitle `in/e1.en.srt` beside it: every
directory exists and is created, the encoder returns `0`, and no stop is requested. -/
def oneFileEnv : BatchEnv where
  fs := ⟨fun dir ↦ if dir = "in".toList then some [⟨"e1.ts".toList, by decide, by decide⟩] else none,
    fun path ↦ if path = "in/e1.ts".toList then some .reg else none, rfl⟩
  dirExists _ := true
  mkdirP _ := true
  fileExists path := path == "in/e1.en.srt".toList
  parseEpisodeMeta _ := ⟨[], [], []⟩
  runCli _ := 0
  stopRequested _ := false

/-- `--batch-input=in --batch-output=out --batch-srt=srt`, with or without `--batch-dry-run`. -/
def oneFileCfg (dryRun : Bool) : BatchCli :=
  ⟨some "in".toList, some "out".toList, some "srt".toList, defaultTemplates, dryRun, []⟩

/-- The command for `in/e1.ts`: output `out/e1.ts`, the English subtitle beside the file. -/
def oneFileArgv : List (Option (List Char)) :=
  (encoderArgs "srt2dvbsub".toList [] "in/e1.ts".toList "out/e1.ts".toList "in/e1.en.srt".toList
    "eng".toList).map some

/-- The log of the run: the encoder called once, returning `0`. -/
def oneFileLog : List (List Char × FileOutcome) := [("in/e1.ts".toList, .encoded oneFileArgv 0)]

/-- The log of the dry run: the command printed without the language list. -/
def oneFileDryLog : List (List Char × FileOutcome) :=
  [("in/e1.ts".toList,
    .dryRun "[DRY RUN] srt2dvbsub --input in/e1.ts --output out/e1.ts --srt in/e1.en.srt --languages \n".toList)]

theorem oneFile_collect :
    collectTsRecursive oneFileEnv.fs 2 "in".toList [] = some (some ["in/e1.ts".toList]) := by
  decide

theorem oneFile_run :
    batchEncodeRun oneFileEnv 2 (oneFileCfg false) "srt2dvbsub".toList = some (0, ⟨1, 0, oneFileLog⟩) := by
  rw [batchEncodeRun_of_collect rfl rfl rfl rfl rfl rfl oneFile_collect (List.cons_ne_nil _ _),
    sortPaths, List.mergeSort_singleton]
  decide +kernel

theorem oneFile_dryRun :
    batchEncodeRun oneFileEnv 2 (oneFileCfg true) "srt2dvbsub".toList = some (0, ⟨1, 0, oneFileDryLog⟩) := by
  rw [batchEncodeRun_of_collect rfl rfl rfl rfl rfl rfl oneFile_collect (List.cons_ne_nil _ _),
    sortPaths, List.mergeSort_singleton]
  decide +kernel

theorem batchEncodeRun_encoderCalls_oneFile :
    batchEncodeRun oneFileEnv 2 (oneFileCfg false) "srt2dvbsub".toList = some (0, ⟨1, 0, oneFileLog⟩) ∧
      ("in/e1.ts".toList, FileOutcome.encoded oneFileArgv 0) ∈ oneFileLog ∧
      (oneFileCfg false).dryRun = false ∧ 0 = oneFileEnv.runCli oneFileArgv ∧
      ∃ inputDir outputDir srtDir dirs name srts langs,
        (oneFileCfg false).inputDir = some inputDir ∧ (oneFileCfg false).outputDir = some outputDir ∧
        (oneFileCfg false).srtDir = some srtDir ∧
        "in/e1.ts".toList = pathUnder inputDir (dirs ++ [name]) ∧
        oneFileEnv.mkdirP (pathUnder outputDir dirs) = true ∧
        resolveSubtitlesForTs ⟨srtDir, (oneFileCfg false).templates⟩ oneFileEnv.parseEpisodeMeta
          oneFileEnv.fileExists (joinNames dirs) (dirname "in/e1.ts".toList) (stripExt name.name) =
            some (srts, langs) ∧
        oneFileArgv = (encoderArgs "srt2dvbsub".toList (oneFileCfg false).forwardArgs "in/e1.ts".toList
          (pathUnder outputDir (dirs ++ [name])) (joinCommas srts) (joinCommas langs)).map some :=
  ⟨oneFile_run, List.mem_singleton_self _,
    batchEncodeRun_encoderCalls oneFile_run (List.mem_singleton_self _)⟩

theorem batchEncodeRun_dryRunLine_oneFile :
    batchEncodeRun oneFileEnv 2 (oneFileCfg true) "srt2dvbsub".toList = some (0, ⟨1, 0, oneFileDryLog⟩) ∧
      ("in/e1.ts".toList, FileOutcome.dryRun
        "[DRY RUN] srt2dvbsub --input in/e1.ts --output out/e1.ts --srt in/e1.en.srt --languages \n".toList) ∈
        oneFileDryLog ∧
      (oneFileCfg true).dryRun = true ∧
      ∃ inputDir outputDir srtDir dirs name srts langs,
        (oneFileCfg true).inputDir = some inputDir ∧ (oneFileCfg true).outputDir = some outputDir ∧
        (oneFileCfg true).srtDir = some srtDir ∧
        "in/e1.ts".toList = pathUnder inputDir (dirs ++ [name]) ∧
        resolveSubtitlesForTs ⟨srtDir, (oneFileCfg true).templates⟩ oneFileEnv.parseEpisodeMeta
          oneFileEnv.fileExists (joinNames dirs) (dirname "in/e1.ts".toList) (stripExt name.name) =
            some (srts, langs) ∧
        "[DRY RUN] srt2dvbsub --input in/e1.ts --output out/e1.ts --srt in/e1.en.srt --languages \n".toList =
          "[DRY RUN] ".toList ++
            ("srt2dvbsub".toList :: (oneFileCfg true).forwardArgs ++ ["--input".toList, "in/e1.ts".toList,
              "--output".toList, pathUnder outputDir (dirs ++ [name]), "--srt".toList, joinCommas srts,
              "--languages".toList]).flatMap (· ++ [' ']) ++ ['\n'] :=
  ⟨oneFile_dryRun, List.mem_singleton_self _,
    batchEncodeRun_dryRunLine oneFile_dryRun (List.mem_singleton_self _)⟩

end Srt2Dvbsub.Batch
