import Srt2Dvbsub.Batch.Resolve
import Srt2Dvbsub.Lib.Loop

/-!
# The output tree of the batch driver

`batch_encode_run` (`batch_encode.c`) collects the `.ts` files under the input root with
`collect_ts_recursive`: a depth-first walk with an explicit stack, which joins each name
`readdir` lists onto its directory with `path_join3(dir, "", name)`. For each file it then
computes two paths under the output root. It creates the directory
`path_join3(output_dir, relative_dir(input_dir, ts_path), "")`, where `relative_dir` strips
the root and one `/` after it and takes glibc's `dirname` of the rest, `"."` becoming `""`.
It writes the file to `path_join3(output_dir, "", rel_path)`, where `rel_path` is `ts_path`
past the root and, when the root does not end with `/`, one character more.

* `collectTsRecursive_files`: every file the walk collects is the root followed by the names
  of the directories on the way and the file's own name (`pathUnder`), none of them `.` or
  `..`.
* `dirname_joinNames`: glibc's `dirname` of the names joined with `/` is the join of all but
  the last.
* `batchEncodeRunPaths_pathUnder`: for a file below the root, `rel_path` is the join of the
  names, `rel_dir` the join of the directories, with or without a `/` at the end of the root.
* `batchEncodeRun_mirrorsInputTree`: for every file the walk collects, the output path is the
  same names below the output root, and the directory created for it is the same directories
  below the output root, the one the output path joins the file's name onto.

Scope. The file system enters as `DirTree`: what `readdir` lists in a directory and what
`lstat` says of a path, both arbitrary; the names `readdir` lists are not empty and hold no
`/`, and the empty path names no directory. An allocation that fails is left out (every
`strdup`, `path_join3` and push succeeds), and so are the subtitle lookup and the encoding
between the computation of the paths, which read `rel_dir` but change none of them.
-/

set_option autoImplicit false
set_option relaxedAutoImplicit false

namespace Srt2Dvbsub.Batch

open CLib Cli

/-! ### glibc's `dirname` -/

/-- glibc's `dirname(path)`. A `/` that ends the path does not count. The result is the path up
to its last `/`, without the run of `/` before it; `.` when there is no `/`; `/` when only
slashes stand before the last one, and `//` when they are exactly two. -/
def dirname (path : List Char) : List Char :=
  if '/' ∉ path then ['.']
  else
    let trimmed := path.rdropWhile (· == '/')
    if trimmed = [] then (if path.length = 2 then ['/', '/'] else ['/'])
    else if '/' ∉ trimmed then ['.']
    else
      let throughSlash := trimmed.rdropWhile (· != '/')
      let dir := throughSlash.rdropWhile (· == '/')
      if dir = [] then (if throughSlash.length = 2 then ['/', '/'] else ['/']) else dir

/-! ### The walk -/

/-- A name `readdir` lists: not empty, and without `/`. -/
structure DirEntryName where
  name : List Char
  name_ne_nil : name ≠ []
  slash_not_mem : '/' ∉ name

/-- The entries `.` and `..`, which `collect_ts_recursive` skips. -/
def DirEntryName.isDotOrDotDot (e : DirEntryName) : Bool :=
  e.name == ['.'] || e.name == ['.', '.']

/-- What `lstat` says of a path, as far as `S_ISDIR` and `S_ISREG` tell. -/
inductive FileKind where
  | dir
  | reg
  | other
  deriving DecidableEq, Repr

/-- The file system as `collect_ts_recursive` reads it: the names `readdir` lists in a
directory (`none` when `opendir` fails) and what `lstat` says of a path (`none` when it fails).
The empty path names no directory (`ENOENT`). -/
structure DirTree where
  readDir : List Char → Option (List DirEntryName)
  lstat : List Char → Option FileKind
  readDir_nil : readDir [] = none

/-- `path_has_ext(path, ext)`: the path ends with `ext`, compared without case. -/
def pathHasExt (path ext : List Char) : Bool :=
  decide (ext.length ≤ path.length) && strcasecmpEq (path.drop (path.length - ext.length)) ext

/-- The walk's state: the directories still to read, top of the stack first, and the files
collected. -/
structure CollectState where
  stack : List (List Char)
  files : List (List Char)

/-- The body of the `readdir` loop for one entry of the directory `current`: a directory is
pushed on the stack, a regular `.ts` file is collected. -/
def collectEntry (fs : DirTree) (current : List Char) (acc : CollectState)
    (ent : DirEntryName) : CollectState :=
  if ent.isDotOrDotDot then acc
  else
    let full := pathJoin3 current [] ent.name
    match fs.lstat full with
    | some .dir => { acc with stack := full :: acc.stack }
    | some .reg =>
      if pathHasExt full ".ts".toList then { acc with files := acc.files ++ [full] } else acc
    | _ => acc

/-- The body of the outer loop: pop a directory and read it, or return. The result is the
files for `0`, `none` for `-1`. -/
def collectStep (fs : DirTree) (st : CollectState) :
    CollectState ⊕ Option (List (List Char)) :=
  match st.stack with
  | [] => .inr (some st.files)
  | current :: rest =>
    match fs.readDir current with
    | none => .inr none
    | some ents => .inl (ents.foldl (collectEntry fs current) { st with stack := rest })

/-- `collect_ts_recursive(dir_path, files)`, reading at most `fuel` directories: `none` when the
fuel runs out first. -/
def collectTsRecursive (fs : DirTree) (fuel : ℕ) (dirPath : List Char)
    (files : List (List Char)) : Option (Option (List (List Char))) :=
  Lib.whileFuel (collectStep fs) fuel ⟨[dirPath], files⟩

/-! ### The paths of one file -/

/-- `relative_dir(root, path)`, `none` for `NULL`. -/
def relativeDir (root path : List Char) : Option (List Char) :=
  if !root.isPrefixOf path then none
  else
    let rootHasTrailingSlash := root.getLast? == some '/'
    -- `path[root_len]`, `none` for the terminating NUL
    let next := (path.drop root.length).head?
    if !rootHasTrailingSlash && next != none && next != some '/' then none
    else
      let rel := if next == some '/' then path.drop (root.length + 1) else path.drop root.length
      let dir := dirname rel
      some (if dir = ['.'] then [] else dir)

/-- The paths `batch_encode_run` computes for a file: `rel_path`, `rel_dir`, the directory
`rel_output` it creates, and `output_path`. -/
structure MirrorPaths where
  relPath : List Char
  relDir : List Char
  relOutput : List Char
  outputPath : List Char
  deriving DecidableEq, Repr

/-- The paths of `ts_path`, or `none` when `batch_encode_run` skips it (outside the input
root, or no relative directory). -/
def batchEncodeRunPaths (inputDir outputDir tsPath : List Char) : Option MirrorPaths :=
  -- `skip`: the `/` after a root that does not end with one
  let skip := if inputDir.getLast? == some '/' then 0 else 1
  if !inputDir.isPrefixOf tsPath then none
  else
    let relPath := tsPath.drop (inputDir.length + skip)
    match relativeDir inputDir tsPath with
    | none => none
    | some relDir =>
      some ⟨relPath, relDir, pathJoin3 outputDir relDir [], pathJoin3 outputDir [] relPath⟩

/-! ### Paths below a root -/

/-- The path `collect_ts_recursive` builds for the entries `names` below `root`, one
`path_join3(dir, "", name)` a level. -/
def pathUnder (root : List Char) (names : List DirEntryName) : List Char :=
  names.foldl (fun dir e ↦ pathJoin3 dir [] e.name) root

/-- The names joined with `/`. -/
def joinNames (names : List DirEntryName) : List Char :=
  ['/'].intercalate (names.map DirEntryName.name)

/-- What `path_join3` writes of a directory before a further segment: the directory, and a `/`
unless it is empty or ends with one. -/
def dirPrefix (dir : List Char) : List Char :=
  if needsSep dir then dir ++ ['/'] else dir

/-- Names that are neither `.` nor `..`. -/
def RealNames (names : List DirEntryName) : Prop :=
  ∀ e ∈ names, e.isDotOrDotDot = false

namespace DirEntryName

variable (e : DirEntryName)

theorem head?_ne_slash : e.name.head? ≠ some '/' :=
  fun h ↦ e.slash_not_mem (List.mem_of_mem_head? h)

/-- A name ends with a character other than `/`. -/
theorem eq_concat : ∃ init c, e.name = init ++ [c] ∧ c ≠ '/' := by
  rcases List.eq_nil_or_concat e.name with hnil | ⟨init, c, hc⟩
  · exact absurd hnil e.name_ne_nil
  · rw [List.concat_eq_append] at hc
    refine ⟨init, c, hc, fun hslash ↦ e.slash_not_mem ?_⟩
    rw [hc, hslash]
    exact List.mem_append_right init (List.mem_singleton_self '/')

/-- After a name, `path_join3` puts a `/` before a further segment. -/
theorem needsSep_append (x : List Char) : needsSep (x ++ e.name) = true := by
  obtain ⟨init, c, hc, hne⟩ := e.eq_concat
  rw [hc, ← List.append_assoc]
  simp [needsSep, hne]

end DirEntryName

theorem RealNames.concat {names : List DirEntryName} {e : DirEntryName} (hreal : RealNames names)
    (he : e.isDotOrDotDot = false) : RealNames (names ++ [e]) := by
  intro d hd
  rcases List.mem_append.mp hd with hd | hd
  · exact hreal d hd
  · rw [List.mem_singleton.mp hd]
    exact he

section Names

variable {names : List DirEntryName}

/-- A segment that does not start with `/` goes after the directory's prefix. -/
theorem pathJoin3_nil_of_head?_ne (dir : List Char) {c : List Char} (hc : c ≠ [])
    (hhead : c.head? ≠ some '/') : pathJoin3 dir [] c = dirPrefix dir ++ c := by
  rw [pathJoin3_of_head?_ne hc hhead, pathJoin3_nil, if_pos rfl]
  rfl

theorem pathJoin3_name (dir : List Char) (e : DirEntryName) :
    pathJoin3 dir [] e.name = dirPrefix dir ++ e.name :=
  pathJoin3_nil_of_head?_ne dir e.name_ne_nil e.head?_ne_slash

theorem joinNames_cons (e : DirEntryName) (names : List DirEntryName) :
    joinNames (e :: names) = e.name ++ (if names = [] then [] else '/' :: joinNames names) := by
  by_cases hnil : names = []
  · simp [joinNames, hnil]
  · rw [if_neg hnil, joinNames, List.map_cons,
      List.intercalate_cons_of_ne_nil (by simpa using hnil)]
    simp [joinNames]

theorem joinNames_concat (names : List DirEntryName) (e : DirEntryName) :
    joinNames (names ++ [e]) = (if names = [] then [] else joinNames names ++ ['/']) ++ e.name := by
  induction names with
  | nil => simp [joinNames]
  | cons d rest ih =>
    rw [List.cons_append, joinNames_cons, if_neg (by simp), ih, if_neg (List.cons_ne_nil d rest),
      joinNames_cons]
    by_cases hrest : rest = [] <;> simp [hrest]

theorem joinNames_ne_nil (hne : names ≠ []) : joinNames names ≠ [] := by
  obtain ⟨e, rest, rfl⟩ := List.exists_cons_of_ne_nil hne
  rw [joinNames_cons]
  exact List.append_ne_nil_of_left_ne_nil e.name_ne_nil _

theorem joinNames_head?_ne (hne : names ≠ []) : (joinNames names).head? ≠ some '/' := by
  obtain ⟨e, rest, rfl⟩ := List.exists_cons_of_ne_nil hne
  rw [joinNames_cons, List.head?_append_of_ne_nil _ e.name_ne_nil]
  exact e.head?_ne_slash

/-- A join of names ends with a character other than `/`. -/
theorem joinNames_eq_concat (hne : names ≠ []) : ∃ init c, joinNames names = init ++ [c] ∧ c ≠ '/' := by
  rcases List.eq_nil_or_concat names with hnil | ⟨ds, d, rfl⟩
  · exact absurd hnil hne
  obtain ⟨init, c, hc, hslash⟩ := d.eq_concat
  rw [List.concat_eq_append]
  rw [joinNames_concat, hc, ← List.append_assoc]
  exact ⟨_, c, rfl, hslash⟩

/-- Real names joined are never `.`. -/
theorem joinNames_ne_dot (hreal : RealNames names) : joinNames names ≠ ['.'] := by
  match names, hreal with
  | [], _ => simp [joinNames]
  | [d], hreal =>
    have hd := hreal d List.mem_cons_self
    simp only [DirEntryName.isDotOrDotDot, Bool.or_eq_false_iff, beq_eq_false_iff_ne] at hd
    simpa [joinNames] using hd.1
  | d :: d' :: rest, _ =>
    intro hdot
    have hslash : '/' ∈ joinNames (d :: d' :: rest) := by
      rw [joinNames_cons, if_neg (List.cons_ne_nil d' rest)]
      exact List.mem_append_right _ List.mem_cons_self
    rw [hdot] at hslash
    simp at hslash

@[simp] theorem joinNames_nil : joinNames [] = [] := rfl

@[simp] theorem pathUnder_nil (root : List Char) : pathUnder root [] = root := rfl

theorem pathUnder_concat (root : List Char) (names : List DirEntryName) (e : DirEntryName) :
    pathUnder root (names ++ [e]) = pathJoin3 (pathUnder root names) [] e.name := by
  simp [pathUnder]

/-- Below a root, a path is the root's prefix followed by the names joined. The proof is by
induction on the names, the root growing by one name a level. -/
theorem pathUnder_eq (root : List Char) (hne : names ≠ []) :
    pathUnder root names = dirPrefix root ++ joinNames names := by
  induction names generalizing root with
  | nil => exact absurd rfl hne
  | cons e rest ih =>
    have hstep : pathUnder root (e :: rest) = pathUnder (dirPrefix root ++ e.name) rest := by
      rw [← pathJoin3_name]
      rfl
    rw [hstep, joinNames_cons]
    by_cases hrest : rest = []
    · subst hrest
      simp
    · rw [ih _ hrest, if_neg hrest, dirPrefix, if_pos (e.needsSep_append _)]
      simp

theorem pathUnder_eq_pathJoin3 (root : List Char) (hne : names ≠ []) :
    pathUnder root names = pathJoin3 root [] (joinNames names) := by
  rw [pathUnder_eq root hne,
    pathJoin3_nil_of_head?_ne root (joinNames_ne_nil hne) (joinNames_head?_ne hne)]

/-- The directory `batch_encode_run` creates: the directories below the output root. -/
theorem pathJoin3_joinNames_nil (root : List Char) (names : List DirEntryName) :
    pathJoin3 root (joinNames names) [] = pathUnder root names := by
  by_cases hnil : names = []
  · subst hnil
    simp [pathJoin3_nil]
  · rw [pathJoin3_nil, if_neg (joinNames_ne_nil hnil), pathUnder_eq root hnil]
    rfl

end Names

/-! ### `dirname` of a relative path -/

/-- glibc's `dirname` of names joined with `/` is the join of all but the last, `.` for one
name. -/
theorem dirname_joinNames (dirs : List DirEntryName) (e : DirEntryName) :
    dirname (joinNames (dirs ++ [e])) = if dirs = [] then ['.'] else joinNames dirs := by
  rw [joinNames_concat]
  by_cases hdirs : dirs = []
  · rw [if_pos hdirs, if_pos hdirs, List.nil_append, dirname, if_pos e.slash_not_mem]
  rw [if_neg hdirs, if_neg hdirs]
  obtain ⟨dirInit, a, hA, ha⟩ := joinNames_eq_concat hdirs
  obtain ⟨nameInit, b, hB, hb⟩ := e.eq_concat
  have hslash : '/' ∈ joinNames dirs ++ ['/'] ++ e.name :=
    List.mem_append_left _ (List.mem_append_right _ (List.mem_singleton_self '/'))
  have htrim : (joinNames dirs ++ ['/'] ++ e.name).rdropWhile (· == '/') =
      joinNames dirs ++ ['/'] ++ e.name := by
    rw [hB, ← List.append_assoc, List.rdropWhile_concat_neg _ _ _ (by simpa using hb)]
  have hthrough : (joinNames dirs ++ ['/'] ++ e.name).rdropWhile (· != '/') =
      joinNames dirs ++ ['/'] := by
    rw [Lib.rdropWhile_append_of_forall _ _ fun (c : Char) hc ↦
        bne_iff_ne.mpr fun (hslash : c = '/') ↦ e.slash_not_mem (hslash ▸ hc),
      List.rdropWhile_concat_neg _ _ _ (by simp)]
  have hdir : (joinNames dirs ++ ['/']).rdropWhile (· == '/') = joinNames dirs := by
    rw [List.rdropWhile_concat_pos _ _ _ (by simp), hA,
      List.rdropWhile_concat_neg _ _ _ (by simpa using ha)]
  have hne : joinNames dirs ++ ['/'] ++ e.name ≠ [] := by simp
  unfold dirname
  rw [if_neg (not_not.mpr hslash)]
  dsimp only
  rw [htrim, if_neg hne, if_neg (not_not.mpr hslash), hthrough, hdir, if_neg (joinNames_ne_nil hdirs)]

/-! ### The paths of a file below the root -/

section File

variable {root : List Char} {dirs : List DirEntryName} {e : DirEntryName}

/-- The prefix `path_join3` writes for a non-empty directory, by its last character. -/
theorem dirPrefix_of_getLast? {dir : List Char} {c : Char} (hlast : dir.getLast? = some c) :
    dirPrefix dir = if c = '/' then dir else dir ++ ['/'] := by
  by_cases hc : c = '/' <;> simp [dirPrefix, needsSep, hlast, hc]

/-- The last character of a non-empty root. -/
theorem exists_getLast?_eq (hroot : root ≠ []) : ∃ c, root.getLast? = some c := by
  cases hlast : root.getLast? with
  | none => exact absurd (List.getLast?_eq_none_iff.mp hlast) hroot
  | some c => exact ⟨c, rfl⟩

/-- `relative_dir` of a file below a non-empty root is the join of its directories, with or
without a `/` at the end of the root. -/
theorem relativeDir_pathUnder (hroot : root ≠ []) (hreal : RealNames (dirs ++ [e])) :
    relativeDir root (pathUnder root (dirs ++ [e])) = some (joinNames dirs) := by
  have hne : dirs ++ [e] ≠ [] := by simp
  have hrel_ne := joinNames_ne_nil hne
  have hrel_head := joinNames_head?_ne hne
  have hdir : (if dirname (joinNames (dirs ++ [e])) = ['.'] then []
      else dirname (joinNames (dirs ++ [e]))) = joinNames dirs := by
    rw [dirname_joinNames]
    by_cases hdirs : dirs = []
    · simp [hdirs]
    · rw [if_neg hdirs, if_neg (joinNames_ne_dot fun d hd ↦ hreal d (List.mem_append_left _ hd))]
  obtain ⟨c, hlast⟩ := exists_getLast?_eq hroot
  rw [pathUnder_eq root hne, dirPrefix_of_getLast? hlast]
  have hisPrefix (x : List Char) : root.isPrefixOf (root ++ x) = true :=
    List.isPrefixOf_iff_prefix.mpr (List.prefix_append _ _)
  by_cases hc : c = '/'
  · rw [if_pos hc]
    subst hc
    have hnext : ((joinNames (dirs ++ [e])).head? == some '/') = false := by simpa using hrel_head
    simp only [relativeDir, hisPrefix, hlast, List.drop_left, hnext, Bool.not_true,
      beq_self_eq_true, Bool.false_and, Bool.false_eq_true, if_false]
    exact congrArg some hdir
  · rw [if_neg hc, List.append_assoc, List.singleton_append]
    have hdrop : (root ++ '/' :: joinNames (dirs ++ [e])).drop (root.length + 1) =
        joinNames (dirs ++ [e]) := by
      simp [List.drop_append]
    simp only [relativeDir, hisPrefix, hlast, List.drop_left, List.head?_cons, hdrop,
      Bool.not_true, Bool.false_eq_true, if_false, beq_self_eq_true, bne_self_eq_false,
      Bool.and_false, if_true]
    exact congrArg some hdir

/-- The paths `batch_encode_run` computes for a file below a non-empty input root. -/
theorem batchEncodeRunPaths_pathUnder (outputDir : List Char) (hroot : root ≠ [])
    (hreal : RealNames (dirs ++ [e])) :
    batchEncodeRunPaths root outputDir (pathUnder root (dirs ++ [e])) =
      some ⟨joinNames (dirs ++ [e]), joinNames dirs, pathJoin3 outputDir (joinNames dirs) [],
        pathJoin3 outputDir [] (joinNames (dirs ++ [e]))⟩ := by
  have hne : dirs ++ [e] ≠ [] := by simp
  have hisPrefix : root.isPrefixOf (pathUnder root (dirs ++ [e])) = true := by
    rw [pathUnder_eq root hne, List.isPrefixOf_iff_prefix, dirPrefix]
    split_ifs
    · exact (List.prefix_append _ _).trans (List.prefix_append _ _)
    · exact List.prefix_append _ _
  have hskip : (pathUnder root (dirs ++ [e])).drop
      (root.length + if root.getLast? == some '/' then 0 else 1) = joinNames (dirs ++ [e]) := by
    obtain ⟨c, hlast⟩ := exists_getLast?_eq hroot
    rw [pathUnder_eq root hne, dirPrefix_of_getLast? hlast, hlast]
    by_cases hc : c = '/'
    · simp [hc]
    · simp [hc, List.drop_append]
  unfold batchEncodeRunPaths
  rw [hisPrefix, relativeDir_pathUnder hroot hreal]
  simp only [Bool.not_true, Bool.false_eq_true, if_false, hskip]

end File

/-! ### What the walk collects -/

/-- A file below `root`: the root followed by real names, the last the file's own. -/
def FileUnder (root file : List Char) : Prop :=
  ∃ dirs name, file = pathUnder root (dirs ++ [name]) ∧ RealNames (dirs ++ [name])

/-- What the walk keeps: every directory on the stack is below the root, and every file
collected is. -/
structure CollectInv (root : List Char) (st : CollectState) : Prop where
  stack_under : ∀ dir ∈ st.stack, ∃ names, dir = pathUnder root names ∧ RealNames names
  files_under : ∀ file ∈ st.files, FileUnder root file

/-- What the walk returns: when it returns `0`, files below the root. -/
def CollectDone (root : List Char) (r : Option (List (List Char))) : Prop :=
  ∀ files, r = some files → ∀ file ∈ files, FileUnder root file

section Walk

variable {fs : DirTree} {root : List Char}

theorem collectInv_init (root : List Char) : CollectInv root ⟨[root], []⟩ where
  stack_under _ hdir := ⟨[], List.mem_singleton.mp hdir, fun _ h ↦ absurd h List.not_mem_nil⟩
  files_under _ h := absurd h List.not_mem_nil

/-- One entry of a directory below the root keeps the invariant. -/
theorem CollectInv.entry {current : List Char} {names : List DirEntryName} {acc : CollectState}
    (hinv : CollectInv root acc) (hcur : current = pathUnder root names) (hreal : RealNames names)
    (ent : DirEntryName) : CollectInv root (collectEntry fs current acc ent) := by
  unfold collectEntry
  split_ifs with hdot
  · exact hinv
  have hfull : pathJoin3 current [] ent.name = pathUnder root (names ++ [ent]) := by
    rw [hcur, pathUnder_concat]
  have hreal' : RealNames (names ++ [ent]) := hreal.concat (Bool.eq_false_iff.mpr hdot)
  dsimp only
  split
  · refine ⟨fun dir hdir ↦ ?_, hinv.files_under⟩
    rcases List.mem_cons.mp hdir with rfl | hdir
    · exact ⟨names ++ [ent], hfull, hreal'⟩
    · exact hinv.stack_under dir hdir
  · split_ifs
    · refine ⟨hinv.stack_under, fun file hfile ↦ ?_⟩
      rcases List.mem_append.mp hfile with hfile | hfile
      · exact hinv.files_under file hfile
      · rw [List.mem_singleton.mp hfile]
        exact ⟨names, ent, hfull, hreal'⟩
    · exact hinv
  · exact hinv

/-- The `readdir` loop over a directory below the root keeps the invariant. -/
theorem CollectInv.entries {current : List Char} {names : List DirEntryName}
    (hcur : current = pathUnder root names) (hreal : RealNames names) :
    ∀ (ents : List DirEntryName) (acc : CollectState), CollectInv root acc →
      CollectInv root (ents.foldl (collectEntry fs current) acc)
  | [], _, hacc => hacc
  | ent :: ents, _, hacc => CollectInv.entries hcur hreal ents _ (hacc.entry hcur hreal ent)

theorem collectStep_of_nil {st : CollectState} (hstack : st.stack = []) :
    collectStep fs st = .inr (some st.files) := by
  simp [collectStep, hstack]

theorem collectStep_of_readDir_none {st : CollectState} {current : List Char}
    {rest : List (List Char)} (hstack : st.stack = current :: rest)
    (hread : fs.readDir current = none) : collectStep fs st = .inr none := by
  simp [collectStep, hstack, hread]

theorem collectStep_of_readDir_some {st : CollectState} {current : List Char}
    {rest : List (List Char)} {ents : List DirEntryName} (hstack : st.stack = current :: rest)
    (hread : fs.readDir current = some ents) :
    collectStep fs st = .inl (ents.foldl (collectEntry fs current) { st with stack := rest }) := by
  simp [collectStep, hstack, hread]

/-- The step lemma of the outer loop: an iteration that goes on keeps the invariant, one that
returns gives files below the root. -/
theorem collectStep_inv {st : CollectState} (hinv : CollectInv root st) :
    (∀ st₁, collectStep fs st = .inl st₁ → CollectInv root st₁) ∧
      ∀ r, collectStep fs st = .inr r → CollectDone root r := by
  rcases hstack : st.stack with _ | ⟨current, rest⟩
  · rw [collectStep_of_nil hstack]
    refine ⟨fun _ h ↦ (nomatch h), ?_⟩
    rintro r ⟨⟩ files ⟨⟩
    exact hinv.files_under
  obtain ⟨names, hcur, hreal⟩ :=
    hinv.stack_under current (by rw [hstack]; exact List.mem_cons_self)
  cases hread : fs.readDir current with
  | none =>
    rw [collectStep_of_readDir_none hstack hread]
    refine ⟨fun _ h ↦ (nomatch h), ?_⟩
    rintro r ⟨⟩ files ⟨⟩
  | some ents =>
    rw [collectStep_of_readDir_some hstack hread]
    refine ⟨?_, fun _ h ↦ nomatch h⟩
    rintro st₁ ⟨⟩
    refine CollectInv.entries hcur hreal ents _ ⟨fun dir hdir ↦ ?_, hinv.files_under⟩
    exact hinv.stack_under dir (by rw [hstack]; exact List.mem_cons_of_mem current hdir)

/-- Every file the walk collects is below the root. -/
theorem collectTsRecursive_files {fuel : ℕ} {files : List (List Char)}
    (hrun : collectTsRecursive fs fuel root [] = some (some files)) :
    ∀ file ∈ files, FileUnder root file := by
  refine Lib.whileFuel_inv (CollectInv root) (CollectDone root) (fun st hst ↦ ?_) fuel
    ⟨[root], []⟩ (some files) (collectInv_init root) hrun files rfl
  cases hstep : collectStep fs st with
  | inl st₁ => exact (collectStep_inv hst).1 st₁ hstep
  | inr r => exact (collectStep_inv hst).2 r hstep

/-- From the empty path the walk returns `-1`, or runs out of fuel: `opendir("")` fails. -/
theorem collectTsRecursive_nil_root (fuel : ℕ) (files₀ files : List (List Char)) :
    collectTsRecursive fs fuel [] files₀ ≠ some (some files) := by
  cases fuel with
  | zero => simp [collectTsRecursive]
  | succ fuel =>
    rw [collectTsRecursive,
      Lib.whileFuel_succ_of_inr fuel (collectStep_of_readDir_none rfl fs.readDir_nil)]
    simp

end Walk

/-! ### The output tree mirrors the input tree -/

/-- For every `.ts` file `collect_ts_recursive` collects under the input root, with or without a
`/` at the end of either root: the file is the input root followed by names, `rel_path` is those
names joined, and `rel_dir` the directories among them. The output path is the same names
below the output root. The directory created for the file is the same directories below the
output root, and the output path is that directory joined with the file's name. -/
theorem batchEncodeRun_mirrorsInputTree (fs : DirTree) (fuel : ℕ) (inputDir outputDir : List Char)
    (files : List (List Char)) (hcollect : collectTsRecursive fs fuel inputDir [] = some (some files))
    (tsPath : List Char) (hts : tsPath ∈ files) :
    ∃ (dirs : List DirEntryName) (name : DirEntryName) (paths : MirrorPaths),
      tsPath = pathUnder inputDir (dirs ++ [name]) ∧
      batchEncodeRunPaths inputDir outputDir tsPath = some paths ∧
      tsPath = pathJoin3 inputDir [] paths.relPath ∧
      paths.relPath = joinNames (dirs ++ [name]) ∧
      paths.relDir = joinNames dirs ∧
      paths.relOutput = pathUnder outputDir dirs ∧
      paths.outputPath = pathUnder outputDir (dirs ++ [name]) ∧
      paths.outputPath = pathJoin3 paths.relOutput [] name.name := by
  obtain ⟨dirs, name, rfl, hreal⟩ := collectTsRecursive_files hcollect tsPath hts
  have hroot : inputDir ≠ [] := by
    rintro rfl
    exact collectTsRecursive_nil_root fuel [] files hcollect
  have hne : dirs ++ [name] ≠ [] := by simp
  refine ⟨dirs, name, _, rfl, batchEncodeRunPaths_pathUnder outputDir hroot hreal,
    pathUnder_eq_pathJoin3 inputDir hne, rfl, rfl, pathJoin3_joinNames_nil outputDir dirs,
    (pathUnder_eq_pathJoin3 outputDir hne).symm, ?_⟩
  dsimp only
  rw [pathJoin3_joinNames_nil, ← pathUnder_eq_pathJoin3 outputDir hne, pathUnder_concat]

/-- An input root `in/`, with its `/`, that holds the directory `sub` with the file `a.ts`. -/
def inSubTree : DirTree where
  readDir dir :=
    if dir = "in/".toList then some [⟨"sub".toList, by decide, by decide⟩]
    else if dir = "in/sub".toList then some [⟨"a.ts".toList, by decide, by decide⟩] else none
  lstat path :=
    if path = "in/sub".toList then some .dir
    else if path = "in/sub/a.ts".toList then some .reg else none
  readDir_nil := rfl

/-- The walk of `in/` collects `in/sub/a.ts`; the file goes to `out/sub/a.ts`, in the
directory `out/sub` created for it. -/
theorem batchEncodeRun_mirrorsInputTree_sub :
    collectTsRecursive inSubTree 3 "in/".toList [] = some (some ["in/sub/a.ts".toList]) ∧
      batchEncodeRunPaths "in/".toList "out".toList "in/sub/a.ts".toList =
        some ⟨"sub/a.ts".toList, "sub".toList, "out/sub".toList, "out/sub/a.ts".toList⟩ ∧
      ∃ (dirs : List DirEntryName) (name : DirEntryName) (paths : MirrorPaths),
        "in/sub/a.ts".toList = pathUnder "in/".toList (dirs ++ [name]) ∧
        batchEncodeRunPaths "in/".toList "out".toList "in/sub/a.ts".toList = some paths ∧
        "in/sub/a.ts".toList = pathJoin3 "in/".toList [] paths.relPath ∧
        paths.relPath = joinNames (dirs ++ [name]) ∧
        paths.relDir = joinNames dirs ∧
        paths.relOutput = pathUnder "out".toList dirs ∧
        paths.outputPath = pathUnder "out".toList (dirs ++ [name]) ∧
        paths.outputPath = pathJoin3 paths.relOutput [] name.name := by
  have hcollect :
      collectTsRecursive inSubTree 3 "in/".toList [] = some (some ["in/sub/a.ts".toList]) := by
    decide
  exact ⟨hcollect, by decide, batchEncodeRun_mirrorsInputTree inSubTree 3 _ _ _ hcollect _
    (List.mem_singleton_self _)⟩

end Srt2Dvbsub.Batch
