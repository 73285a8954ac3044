import Srt2Dvbsub.Cli.ListParse
import Srt2Dvbsub.Lib.List

/-!
# Subtitle lookup of the batch driver

`batch_encode_run` (`batch_encode.c`) walks an input tree and runs the single-file pipeline
once for each `.ts` file. For a file, `resolve_subtitles_for_ts` expands every subtitle
template (`substitute_template`), drops the expansions `path_is_safe_relative` rejects, looks
each one up under the SRT root in the file's relative directory and then next to the file
(`path_join3`, `file_exists`), and collects the paths it finds with the template's language.
The driver hands the two lists to the pipeline joined with `,` by `strvec_join`, and the
pipeline splits them again with `strtok_r` on `,` (`ctx_init`, `ctx_parse_tracks`).

The two lists are equally long and not empty, and no path is empty
(`resolveSubtitlesForTs_shape`). Every character of a path comes from the SRT root, the
relative or the file's directory, the template, the file name or its episode data, or is a
`/` (`forall_mem_resolveSubtitlesForTs`). When none of those holds a comma, splitting the
joined lists gives back both lists (`resolveSubtitlesForTs_roundTrip`). The join escapes
nothing: a comma in a directory name cuts a path in two tokens, and the pipeline pairs the
pieces with the wrong languages (`resolveSubtitlesForTs_commaInDirectory`).

`path_join3` puts a `/` between two segments that do not meet at one (`pathJoin3_nil`,
`pathJoin3_of_head?_ne`), but a third segment that starts with `/` loses it and gets no
separator in its place: the rest is appended as it is (`pathJoin3_leadingSlash`). The lookup
consults `file_exists` only at the two candidates of a template whose expansion
`path_is_safe_relative` accepts, a non-empty relative path without `.` or `..` segments
(`pathIsSafeRelative_iff`), each candidate being a directory followed by the expansion
(`resolveSubtitlesForTs_candidates`).

The file system enters as `file_exists`, a predicate on paths. `parse_episode_meta`, which
matches the file name against POSIX regular expressions, enters as a function from the file
name to its episode data. Each result holds for all of them.
-/

set_option autoImplicit false
set_option relaxedAutoImplicit false

namespace Srt2Dvbsub.Batch

open CLib Cli

/-! ### String helpers -/

/-- `strvec_join(sv, delim)`: the entries with `delim` between them, or one after the other
for the delimiter `'\x00'`. -/
def strvecJoin (sv : List (List Char)) (delim : Char) : List Char :=
  if delim = '\x00' then sv.flatten else [delim].intercalate sv

/-- Whether `path_join3` puts a `/` after the text written so far: `pos > 0 &&
out[pos - 1] != '/'`. -/
def needsSep (out : List Char) : Bool :=
  match out.getLast? with
  | none => false
  | some c => c != '/'

/-- `path_join3(a, b, c)`, an absent segment given as the empty string: `b` is skipped when
empty, a `/` goes between two segments that do not already meet at one, and one leading `/`
of `c` is dropped. -/
def pathJoin3 (a b c : List Char) : List Char :=
  let startsWithSep := c.head? == some '/'
  let cStart := if startsWithSep then c.drop 1 else c
  if b = [] then
    (if c ≠ [] ∧ needsSep a ∧ !startsWithSep then a ++ ['/'] else a) ++ cStart
  else
    let ab := (if needsSep a then a ++ ['/'] else a) ++ b
    (if needsSep ab ∧ c ≠ [] ∧ !startsWithSep then ab ++ ['/'] else ab) ++ cStart

/-- `path_is_safe_relative(path)`: not empty, not absolute, and no segment between slashes is
`.` or `..`. The scan skips every run of `/`, so the segments it checks are the tokens
`strtok_r` returns on `/`. -/
def pathIsSafeRelative (path : List Char) : Bool :=
  match path with
  | [] => false
  | c :: _ =>
    c != '/' && (strtokAll (· == '/') path).all fun seg ↦ seg != ['.', '.'] && seg != ['.']

/-! ### Templates -/

/-- `EpisodeMeta` as `substitute_template` reads it: the show (empty for `NULL`), and the
two-digit season and episode (empty while their first byte is NUL). -/
structure EpisodeMeta where
  showName : List Char
  season : List Char
  episode : List Char
  deriving DecidableEq, Repr

/-- The chunks `substitute_template` pushes: the value of each `${BASENAME}`, `${SHOW}`,
`${SEASON}` and `${EPISODE}`, and every other character on its own. -/
def templateChunks (episodeMeta : EpisodeMeta) (basename : List Char) :
    List Char → List (List Char)
  | '$' :: '{' :: 'B' :: 'A' :: 'S' :: 'E' :: 'N' :: 'A' :: 'M' :: 'E' :: '}' :: p =>
    basename :: templateChunks episodeMeta basename p
  | '$' :: '{' :: 'S' :: 'H' :: 'O' :: 'W' :: '}' :: p =>
    episodeMeta.showName :: templateChunks episodeMeta basename p
  | '$' :: '{' :: 'S' :: 'E' :: 'A' :: 'S' :: 'O' :: 'N' :: '}' :: p =>
    episodeMeta.season :: templateChunks episodeMeta basename p
  | '$' :: '{' :: 'E' :: 'P' :: 'I' :: 'S' :: 'O' :: 'D' :: 'E' :: '}' :: p =>
    episodeMeta.episode :: templateChunks episodeMeta basename p
  | c :: p => [c] :: templateChunks episodeMeta basename p
  | [] => []

/-- `substitute_template(pattern, meta, basename)`: the chunks joined with `strvec_join` and
the delimiter NUL. -/
def substituteTemplate (pattern : List Char) (episodeMeta : EpisodeMeta)
    (basename : List Char) : List Char :=
  strvecJoin (templateChunks episodeMeta basename pattern) '\x00'

/-- A `BatchEncodeTemplate`: `add_template_internal` stores only a language of exactly three
characters. -/
structure BatchEncodeTemplate where
  pattern : List Char
  lang : List Char
  lang_length : lang.length = 3
  deriving DecidableEq

/-- `batch_encode_add_template(cfg, entry)` on an entry `pattern|lang`: the pattern before the
first `|`, the language after it. -/
def batchEncodeAddTemplate (entry : List Char) : Option BatchEncodeTemplate :=
  match entry.span (· != '|') with
  | (_, []) => none
  | (pattern, _ :: lang) =>
    if h : lang.length = 3 then some ⟨pattern, lang, h⟩ else none

/-- The fields of `BatchEncodeConfig` that the subtitle lookup reads. -/
structure BatchEncodeConfig where
  srtDir : List Char
  templates : List BatchEncodeTemplate

/-- The templates of `batch_encode_init_defaults`. -/
def defaultTemplates : List BatchEncodeTemplate :=
  ["${BASENAME}.en.subtitles.srt|eng".toList, "${BASENAME}.en.srt|eng".toList].filterMap
    batchEncodeAddTemplate

/-! ### `resolve_subtitles_for_ts` -/

/-- One template of the loop of `resolve_subtitles_for_ts`: the path found and the template's
language, or `none` when the expansion is unsafe or no file exists at either place. -/
def resolveTemplate (cfg : BatchEncodeConfig) (fileExists : List Char → Bool)
    (relDir tsDir basename : List Char) (episodeMeta : EpisodeMeta)
    (tpl : BatchEncodeTemplate) : Option (List Char × List Char) :=
  let resolved := substituteTemplate tpl.pattern episodeMeta basename
  if !pathIsSafeRelative resolved then none
  else
    -- `path_join3(cfg->srt_dir, "", resolved)` for an empty `rel_dir` skips it the same way
    let srtPath := pathJoin3 cfg.srtDir relDir resolved
    if fileExists srtPath then some (srtPath, tpl.lang)
    else
      let tsPath := pathJoin3 tsDir [] resolved
      if fileExists tsPath then some (tsPath, tpl.lang) else none

/-- `resolve_subtitles_for_ts(cfg, rel_dir, ts_dir, basename, srts, langs)`: the paths and
languages it pushes, or `none` for the return value `1` when it finds no file. -/
def resolveSubtitlesForTs (cfg : BatchEncodeConfig)
    (parseEpisodeMeta : List Char → EpisodeMeta) (fileExists : List Char → Bool) (relDir tsDir basename : List Char) :
    Option (List (List Char) × List (List Char)) :=
  let episodeMeta := parseEpisodeMeta basename
  let found := cfg.templates.foldl
    (fun vecs tpl ↦
      Lib.pushPair vecs (resolveTemplate cfg fileExists relDir tsDir basename episodeMeta tpl))
    ([], [])
  if found.1.length > 0 then some found else none

/-! ### What the lookup returns -/

theorem strvecJoin_comma (sv : List (List Char)) : strvecJoin sv ',' = joinCommas sv := by
  rw [strvecJoin, if_neg (by decide), joinCommas]

/-- Every character of an expansion is one of the pattern's or one of a variable's value. -/
theorem forall_mem_templateChunks {P : Char → Prop} {episodeMeta : EpisodeMeta}
    {basename : List Char} (hbase : ∀ x ∈ basename, P x)
    (hmeta : ∀ x ∈ episodeMeta.showName ++ episodeMeta.season ++ episodeMeta.episode, P x) :
    ∀ pattern : List Char, (∀ x ∈ pattern, P x) →
      ∀ chunk ∈ templateChunks episodeMeta basename pattern, ∀ x ∈ chunk, P x := by
  intro pattern
  fun_induction templateChunks episodeMeta basename pattern with
  | case1 p ih =>
    intro hpat
    exact List.forall_mem_cons.mpr ⟨hbase, ih fun x hx ↦ hpat x (by simp [hx])⟩
  | case2 p ih =>
    intro hpat
    exact List.forall_mem_cons.mpr
      ⟨fun x hx ↦ hmeta x (by simp [hx]), ih fun x hx ↦ hpat x (by simp [hx])⟩
  | case3 p ih =>
    intro hpat
    exact List.forall_mem_cons.mpr
      ⟨fun x hx ↦ hmeta x (by simp [hx]), ih fun x hx ↦ hpat x (by simp [hx])⟩
  | case4 p ih =>
    intro hpat
    exact List.forall_mem_cons.mpr
      ⟨fun x hx ↦ hmeta x (by simp [hx]), ih fun x hx ↦ hpat x (by simp [hx])⟩
  | case5 c p _ _ _ _ ih =>
    intro hpat
    refine List.forall_mem_cons.mpr ⟨?_, ih fun x hx ↦ hpat x (List.mem_cons_of_mem c hx)⟩
    intro x hx
    rw [List.mem_singleton] at hx
    exact hpat x (hx ▸ List.mem_cons_self)
  | case6 =>
    intro _ chunk hchunk
    cases hchunk

theorem forall_mem_substituteTemplate {P : Char → Prop} {pattern basename : List Char}
    {episodeMeta : EpisodeMeta} (hpat : ∀ x ∈ pattern, P x) (hbase : ∀ x ∈ basename, P x)
    (hmeta : ∀ x ∈ episodeMeta.showName ++ episodeMeta.season ++ episodeMeta.episode, P x) :
    ∀ x ∈ substituteTemplate pattern episodeMeta basename, P x := by
  intro x hx
  rw [substituteTemplate, strvecJoin, if_pos rfl, List.mem_flatten] at hx
  obtain ⟨chunk, hchunk, hx⟩ := hx
  exact forall_mem_templateChunks hbase hmeta pattern hpat chunk hchunk x hx

/-- A separator `path_join3` may add keeps a property that `/` has. -/
theorem forall_mem_sepIf {P : Char → Prop} {l : List Char} (q : Prop) [Decidable q]
    (hl : ∀ x ∈ l, P x) (hsep : P '/') : ∀ x ∈ (if q then l ++ ['/'] else l), P x := by
  split_ifs
  · exact List.forall_mem_append.mpr ⟨hl, List.forall_mem_singleton.mpr hsep⟩
  · exact hl

/-- Every character of a joined path comes from a segment, or is a `/`. -/
theorem forall_mem_pathJoin3 {P : Char → Prop} {a b c : List Char} (ha : ∀ x ∈ a, P x)
    (hb : ∀ x ∈ b, P x) (hc : ∀ x ∈ c, P x) (hsep : P '/') : ∀ x ∈ pathJoin3 a b c, P x := by
  have hstart : ∀ x ∈ (if c.head? == some '/' then c.drop 1 else c), P x := by
    split_ifs
    · exact fun x hx ↦ hc x (List.mem_of_mem_drop hx)
    · exact hc
  unfold pathJoin3
  dsimp only
  by_cases hb₀ : b = []
  · rw [if_pos hb₀]
    exact List.forall_mem_append.mpr ⟨forall_mem_sepIf _ ha hsep, hstart⟩
  · rw [if_neg hb₀]
    have hab := List.forall_mem_append.mpr ⟨forall_mem_sepIf (needsSep a = true) ha hsep, hb⟩
    exact List.forall_mem_append.mpr ⟨forall_mem_sepIf _ hab hsep, hstart⟩

/-- A path joined onto a safe relative path ends with it, and so is not empty. -/
theorem pathJoin3_ne_nil {a b c : List Char} (hc : pathIsSafeRelative c = true) :
    pathJoin3 a b c ≠ [] := by
  obtain ⟨d, rest, rfl, hd⟩ : ∃ d rest, c = d :: rest ∧ d ≠ '/' := by
    match c, hc with
    | d :: rest, hc =>
      simp only [pathIsSafeRelative, Bool.and_eq_true, bne_iff_ne, ne_eq] at hc
      exact ⟨d, rest, rfl, hc.1⟩
  have hstart : ((d :: rest).head? == some '/') = false := by simpa using hd
  unfold pathJoin3
  dsimp only
  rw [hstart, if_neg Bool.false_ne_true]
  split_ifs <;> exact List.append_ne_nil_of_right_ne_nil _ (List.cons_ne_nil d rest)

/-! ### The shape of a join -/

section Join

variable {a b c : List Char}

/-- `path_join3(a, b, "")`: `a`, then `b` after a `/` unless `a` already ends with one. -/
theorem pathJoin3_nil (a b : List Char) :
    pathJoin3 a b [] = if b = [] then a else (if needsSep a then a ++ ['/'] else a) ++ b := by
  unfold pathJoin3
  by_cases hb : b = [] <;> simp [hb]

/-- A third segment that does not start with `/` goes after the join of the first two, with
a `/` between them unless that join already ends with one. -/
theorem pathJoin3_of_head?_ne (hc : c ≠ []) (hhead : c.head? ≠ some '/') :
    pathJoin3 a b c =
      (if needsSep (pathJoin3 a b []) then pathJoin3 a b [] ++ ['/'] else pathJoin3 a b []) ++
        c := by
  have hstart : (c.head? == some '/') = false := by simpa using hhead
  rw [pathJoin3_nil]
  unfold pathJoin3
  simp only [hstart, Bool.false_eq_true, ↓reduceIte, Bool.not_false, and_true, ne_eq, hc,
    not_false_eq_true, true_and]
  by_cases hb : b = [] <;> simp [hb]

/-- A third segment that starts with `/` loses that `/`, and no separator takes its place:
the rest is appended to the join of the first two as it is. The same rest without the `/` is
put after a separator. -/
theorem pathJoin3_leadingSlash (a b rest : List Char) :
    pathJoin3 a b ('/' :: rest) = pathJoin3 a b [] ++ rest ∧
      (needsSep (pathJoin3 a b []) = true → rest ≠ [] → rest.head? ≠ some '/' →
        pathJoin3 a b rest = pathJoin3 a b [] ++ '/' :: rest) := by
  constructor
  · rw [pathJoin3_nil]
    unfold pathJoin3
    by_cases hb : b = [] <;> simp [hb]
  · intro hsep hrest hhead
    rw [pathJoin3_of_head?_ne hrest hhead, if_pos hsep, List.append_assoc, List.singleton_append]

/-- `path_join3("out", "", "/x.ts")` is `outx.ts`, where `out/x.ts` is meant; and
`path_join3("a/", "/b", "")` doubles the separator. -/
theorem pathJoin3_leadingSlash_out :
    pathJoin3 "out".toList [] "/x.ts".toList = "outx.ts".toList ∧
      pathJoin3 "out".toList [] "x.ts".toList = "out/x.ts".toList ∧
      pathJoin3 "a/".toList "/b".toList [] = "a//b".toList := by
  have h := pathJoin3_leadingSlash "out".toList [] "x.ts".toList
  have hnil : pathJoin3 "out".toList [] [] = "out".toList := by decide
  rw [hnil] at h
  exact ⟨h.1, h.2 (by decide) (by decide) (by decide), by decide⟩

/-- `path_is_safe_relative` accepts exactly the non-empty paths that do not start with `/` and
have no segment `.` or `..` between slashes. -/
theorem pathIsSafeRelative_iff (path : List Char) :
    pathIsSafeRelative path = true ↔
      path ≠ [] ∧ path.head? ≠ some '/' ∧
        ∀ seg ∈ path.splitOnP (· == '/'), seg ≠ ['.'] ∧ seg ≠ ['.', '.'] := by
  cases path with
  | nil => simp [pathIsSafeRelative]
  | cons c rest =>
    simp only [pathIsSafeRelative, Bool.and_eq_true, bne_iff_ne, ne_eq, List.all_eq_true,
      strtokAll_eq_nonemptyFields, nonemptyFields, List.mem_filter, Bool.not_eq_true',
      List.isEmpty_eq_false_iff, List.head?_cons, Option.some.injEq, reduceCtorEq,
      not_false_eq_true, true_and, and_imp]
    refine and_congr_right fun _ ↦ forall_congr' fun seg ↦ ?_
    constructor
    · intro h hseg
      by_cases hnil : seg = []
      · simp [hnil]
      · simpa [and_comm] using h hseg hnil
    · intro h hseg _
      simpa [and_comm] using h hseg

end Join

/-- A template that resolves gives a safe expansion, found under the SRT root or next to the
file, with the template's language. -/
theorem resolveTemplate_eq_some {cfg : BatchEncodeConfig} {fileExists : List Char → Bool}
    {relDir tsDir basename : List Char} {episodeMeta : EpisodeMeta} {tpl : BatchEncodeTemplate}
    {path lang : List Char}
    (h : resolveTemplate cfg fileExists relDir tsDir basename episodeMeta tpl =
      some (path, lang)) :
    pathIsSafeRelative (substituteTemplate tpl.pattern episodeMeta basename) = true ∧
      (path = pathJoin3 cfg.srtDir relDir (substituteTemplate tpl.pattern episodeMeta basename) ∨
        path = pathJoin3 tsDir [] (substituteTemplate tpl.pattern episodeMeta basename)) ∧
      lang = tpl.lang := by
  unfold resolveTemplate at h
  dsimp only at h
  split_ifs at h with hsafe hsrt hts
  · cases h
    exact ⟨by simpa using hsafe, .inl rfl, rfl⟩
  · cases h
    exact ⟨by simpa using hsafe, .inr rfl, rfl⟩

/-- One template consults `file_exists` at its two candidates only, and only when its
expansion is safe. -/
theorem resolveTemplate_congr {cfg : BatchEncodeConfig} {f g : List Char → Bool}
    {relDir tsDir basename : List Char} {episodeMeta : EpisodeMeta} {tpl : BatchEncodeTemplate}
    (hagree : pathIsSafeRelative (substituteTemplate tpl.pattern episodeMeta basename) = true →
      f (pathJoin3 cfg.srtDir relDir (substituteTemplate tpl.pattern episodeMeta basename)) =
          g (pathJoin3 cfg.srtDir relDir (substituteTemplate tpl.pattern episodeMeta basename)) ∧
        f (pathJoin3 tsDir [] (substituteTemplate tpl.pattern episodeMeta basename)) =
          g (pathJoin3 tsDir [] (substituteTemplate tpl.pattern episodeMeta basename))) :
    resolveTemplate cfg f relDir tsDir basename episodeMeta tpl =
      resolveTemplate cfg g relDir tsDir basename episodeMeta tpl := by
  unfold resolveTemplate
  dsimp only
  by_cases hsafe : pathIsSafeRelative (substituteTemplate tpl.pattern episodeMeta basename) = true
  · obtain ⟨hsrt, hts⟩ := hagree hsafe
    rw [hsrt, hts]
  · simp [hsafe]

/-- The lists `resolve_subtitles_for_ts` fills are the two halves of the templates that
resolve, in template order. -/
theorem resolveSubtitlesForTs_eq_some {cfg : BatchEncodeConfig}
    {parseEpisodeMeta : List Char → EpisodeMeta} {fileExists : List Char → Bool}
    {relDir tsDir basename : List Char} {srts langs : List (List Char)}
    (h : resolveSubtitlesForTs cfg parseEpisodeMeta fileExists relDir tsDir basename =
      some (srts, langs)) :
    ∃ found : List (List Char × List Char),
      (∀ p ∈ found, ∃ tpl ∈ cfg.templates,
        resolveTemplate cfg fileExists relDir tsDir basename (parseEpisodeMeta basename) tpl =
          some p) ∧
      found ≠ [] ∧ srts = found.map Prod.fst ∧ langs = found.map Prod.snd := by
  unfold resolveSubtitlesForTs at h
  dsimp only at h
  rw [Lib.foldl_pushPair] at h
  split_ifs at h with hpos
  cases h
  refine ⟨cfg.templates.filterMap
      (resolveTemplate cfg fileExists relDir tsDir basename (parseEpisodeMeta basename)),
    fun p hp ↦ ?_, fun hnil ↦ ?_, List.nil_append _, List.nil_append _⟩
  · obtain ⟨tpl, htpl, hres⟩ := List.mem_filterMap.mp hp
    exact ⟨tpl, htpl, hres⟩
  · simp [hnil] at hpos

/-- `resolve_subtitles_for_ts` consults `file_exists` only at two candidates of each template
whose expansion `path_is_safe_relative` accepts: under the SRT root in the relative directory,
and in the file's directory. Such an expansion is a non-empty relative path with no `.` or `..`
segment, and each candidate is its directory followed by it after a separator, so it lies
lexically under that directory. -/
theorem resolveSubtitlesForTs_candidates (cfg : BatchEncodeConfig)
    (parseEpisodeMeta : List Char → EpisodeMeta) (relDir tsDir basename : List Char) :
    (∀ f g : List Char → Bool,
      (∀ tpl ∈ cfg.templates,
        let expansion := substituteTemplate tpl.pattern (parseEpisodeMeta basename) basename
        pathIsSafeRelative expansion = true →
          f (pathJoin3 cfg.srtDir relDir expansion) = g (pathJoin3 cfg.srtDir relDir expansion) ∧
            f (pathJoin3 tsDir [] expansion) = g (pathJoin3 tsDir [] expansion)) →
      resolveSubtitlesForTs cfg parseEpisodeMeta f relDir tsDir basename =
        resolveSubtitlesForTs cfg parseEpisodeMeta g relDir tsDir basename) ∧
    ∀ tpl ∈ cfg.templates,
      let expansion := substituteTemplate tpl.pattern (parseEpisodeMeta basename) basename
      pathIsSafeRelative expansion = true →
        (expansion ≠ [] ∧ expansion.head? ≠ some '/' ∧
          ∀ seg ∈ expansion.splitOnP (· == '/'), seg ≠ ['.'] ∧ seg ≠ ['.', '.']) ∧
        pathJoin3 cfg.srtDir relDir expansion =
          (if needsSep (pathJoin3 cfg.srtDir relDir []) then pathJoin3 cfg.srtDir relDir [] ++ ['/']
            else pathJoin3 cfg.srtDir relDir []) ++ expansion ∧
        pathJoin3 tsDir [] expansion =
          (if needsSep tsDir then tsDir ++ ['/'] else tsDir) ++ expansion := by
  constructor
  · intro f g hagree
    unfold resolveSubtitlesForTs
    dsimp only
    rw [Lib.foldl_pushPair, Lib.foldl_pushPair,
      List.filterMap_congr fun tpl htpl ↦ resolveTemplate_congr (hagree tpl htpl)]
  · intro tpl _ expansion hsafe
    obtain ⟨hne, hhead, hsegs⟩ := (pathIsSafeRelative_iff expansion).mp hsafe
    refine ⟨⟨hne, hhead, hsegs⟩, pathJoin3_of_head?_ne hne hhead, ?_⟩
    rw [pathJoin3_of_head?_ne hne hhead, pathJoin3_nil, if_pos rfl]

/-- The two lists are equally long and not empty, no path is empty, and every language has
three characters. -/
theorem resolveSubtitlesForTs_shape {cfg : BatchEncodeConfig}
    {parseEpisodeMeta : List Char → EpisodeMeta} {fileExists : List Char → Bool}
    {relDir tsDir basename : List Char} {srts langs : List (List Char)}
    (h : resolveSubtitlesForTs cfg parseEpisodeMeta fileExists relDir tsDir basename =
      some (srts, langs)) :
    0 < srts.length ∧ srts.length = langs.length ∧ (∀ path ∈ srts, path ≠ []) ∧
      ∀ lang ∈ langs, lang.length = 3 := by
  obtain ⟨found, hfound, hne, rfl, rfl⟩ := resolveSubtitlesForTs_eq_some h
  refine ⟨by simpa [List.length_pos_iff] using hne, by simp, ?_, ?_⟩
  · intro path hpath
    obtain ⟨⟨path, lang⟩, hp, rfl⟩ := List.mem_map.mp hpath
    obtain ⟨tpl, -, hres⟩ := hfound _ hp
    obtain ⟨hsafe, hjoin, -⟩ := resolveTemplate_eq_some hres
    show path ≠ []
    rcases hjoin with rfl | rfl <;> exact pathJoin3_ne_nil hsafe
  · intro lang hlang
    obtain ⟨⟨path, _⟩, hp, rfl⟩ := List.mem_map.mp hlang
    obtain ⟨tpl, -, hres⟩ := hfound _ hp
    obtain ⟨-, -, rfl⟩ := resolveTemplate_eq_some hres
    exact tpl.lang_length

/-- Every character of a path found is one of the SRT root, the relative or the file's
directory, the file name, its episode data or a template, or a `/`. -/
theorem forall_mem_resolveSubtitlesForTs {P : Char → Prop} {cfg : BatchEncodeConfig}
    {parseEpisodeMeta : List Char → EpisodeMeta} {fileExists : List Char → Bool}
    {relDir tsDir basename : List Char} {srts langs : List (List Char)}
    (h : resolveSubtitlesForTs cfg parseEpisodeMeta fileExists relDir tsDir basename =
      some (srts, langs))
    (hdirs : ∀ x ∈ cfg.srtDir ++ relDir ++ tsDir ++ basename, P x)
    (hmeta : ∀ x ∈ (parseEpisodeMeta basename).showName ++ (parseEpisodeMeta basename).season ++
      (parseEpisodeMeta basename).episode, P x)
    (htemplates : ∀ tpl ∈ cfg.templates, ∀ x ∈ tpl.pattern, P x) (hsep : P '/') :
    ∀ path ∈ srts, ∀ x ∈ path, P x := by
  simp only [List.forall_mem_append] at hdirs
  obtain ⟨⟨⟨hsrt, hrel⟩, hts⟩, hbase⟩ := hdirs
  obtain ⟨found, hfound, -, rfl, -⟩ := resolveSubtitlesForTs_eq_some h
  intro path hpath
  obtain ⟨⟨path, lang⟩, hp, rfl⟩ := List.mem_map.mp hpath
  obtain ⟨tpl, htpl, hres⟩ := hfound _ hp
  have hresolved := forall_mem_substituteTemplate (htemplates tpl htpl) hbase hmeta
  obtain ⟨-, hjoin, -⟩ := resolveTemplate_eq_some hres
  show ∀ x ∈ path, P x
  rcases hjoin with rfl | rfl
  · exact forall_mem_pathJoin3 hsrt hrel hresolved hsep
  · exact forall_mem_pathJoin3 hts (fun _ h ↦ absurd h List.not_mem_nil) hresolved hsep

/-! ### The lists through `strvec_join` and `strtok_r` -/

/-- No input of the lookup holds a comma: the SRT root, the relative and the file's directory,
the file name, its episode data, and every template with its language. -/
def CommaFreeInputs (cfg : BatchEncodeConfig) (episodeMeta : EpisodeMeta)
    (relDir tsDir basename : List Char) : Prop :=
  ',' ∉ cfg.srtDir ++ relDir ++ tsDir ++ basename ∧
    ',' ∉ episodeMeta.showName ++ episodeMeta.season ++ episodeMeta.episode ∧
    ∀ tpl ∈ cfg.templates, ',' ∉ tpl.pattern ++ tpl.lang

instance (cfg : BatchEncodeConfig) (episodeMeta : EpisodeMeta) (relDir tsDir basename : List Char) :
    Decidable (CommaFreeInputs cfg episodeMeta relDir tsDir basename) := by
  unfold CommaFreeInputs
  infer_instance

/-- Over inputs without a comma, the lists `batch_encode_run` joins come back whole from the
`strtok_r` loops of the pipeline: as many paths as languages, at least one, in order. -/
theorem resolveSubtitlesForTs_roundTrip {cfg : BatchEncodeConfig}
    {parseEpisodeMeta : List Char → EpisodeMeta} {fileExists : List Char → Bool}
    {relDir tsDir basename : List Char} {srts langs : List (List Char)}
    (h : resolveSubtitlesForTs cfg parseEpisodeMeta fileExists relDir tsDir basename =
      some (srts, langs))
    (hcomma : CommaFreeInputs cfg (parseEpisodeMeta basename) relDir tsDir basename) :
    0 < srts.length ∧ srts.length = langs.length ∧
      commaTokens (strvecJoin srts ',') = srts ∧ commaTokens (strvecJoin langs ',') = langs := by
  obtain ⟨hdirs, hmeta, htemplates⟩ := hcomma
  obtain ⟨hpos, hlen, hne, hthree⟩ := resolveSubtitlesForTs_shape h
  have hpaths : ∀ path ∈ srts, ',' ∉ path := by
    intro path hpath hmem
    refine forall_mem_resolveSubtitlesForTs (P := (· ≠ ',')) h
      (fun x hx heq ↦ hdirs (heq ▸ hx)) (fun x hx heq ↦ hmeta (heq ▸ hx))
      (fun tpl htpl x hx heq ↦ htemplates tpl htpl (List.mem_append_left _ (heq ▸ hx)))
      (by decide) path hpath ',' hmem rfl
  have hlangs : ∀ lang ∈ langs, ',' ∉ lang := by
    obtain ⟨found, hfound, -, -, rfl⟩ := resolveSubtitlesForTs_eq_some h
    intro lang hlang hmem
    obtain ⟨⟨path, lang⟩, hp, rfl⟩ := List.mem_map.mp hlang
    obtain ⟨tpl, htpl, hres⟩ := hfound _ hp
    obtain ⟨-, -, rfl⟩ := resolveTemplate_eq_some hres
    exact htemplates tpl htpl (List.mem_append_right _ hmem)
  refine ⟨hpos, hlen, ?_, ?_⟩
  · rw [strvecJoin_comma]
    exact commaTokens_joinCommas srts hpaths hne
  · rw [strvecJoin_comma]
    refine commaTokens_joinCommas langs hlangs fun lang hlang hnil ↦ ?_
    simpa [hnil] using hthree lang hlang

/-- Two subtitles found under the SRT root for `ep1.ts` in `Season 1`. -/
theorem resolveSubtitlesForTs_roundTrip_seasonDir :
    let cfg : BatchEncodeConfig := ⟨"/subs".toList,
      ["${BASENAME}.en.srt|eng".toList, "${BASENAME}.de.srt|deu".toList].filterMap
        batchEncodeAddTemplate⟩
    let found := ["/subs/Season 1/ep1.en.srt".toList, "/subs/Season 1/ep1.de.srt".toList]
    resolveSubtitlesForTs cfg (fun _ ↦ ⟨[], [], []⟩) (· ∈ found) "Season 1".toList
        "/in/Season 1".toList "ep1".toList = some (found, ["eng".toList, "deu".toList]) ∧
      CommaFreeInputs cfg ⟨[], [], []⟩ "Season 1".toList "/in/Season 1".toList "ep1".toList ∧
      commaTokens (strvecJoin found ',') = found := by
  intro cfg found
  have hres : resolveSubtitlesForTs cfg (fun _ ↦ ⟨[], [], []⟩) (· ∈ found) "Season 1".toList
      "/in/Season 1".toList "ep1".toList = some (found, ["eng".toList, "deu".toList]) := by
    decide
  have hcomma : CommaFreeInputs cfg ⟨[], [], []⟩ "Season 1".toList "/in/Season 1".toList
      "ep1".toList := by
    decide
  exact ⟨hres, hcomma, (resolveSubtitlesForTs_roundTrip hres hcomma).2.2.1⟩

/-- A relative directory `Show, The`: both subtitles are found, but the joined `--srt` list
splits into four tokens, and the pipeline pairs `/subs/Show` with `eng` and
` The/ep1.en.srt` with `deu`. -/
theorem resolveSubtitlesForTs_commaInDirectory :
    let cfg : BatchEncodeConfig := ⟨"/subs".toList,
      ["${BASENAME}.en.srt|eng".toList, "${BASENAME}.de.srt|deu".toList].filterMap
        batchEncodeAddTemplate⟩
    let found := ["/subs/Show, The/ep1.en.srt".toList, "/subs/Show, The/ep1.de.srt".toList]
    resolveSubtitlesForTs cfg (fun _ ↦ ⟨[], [], []⟩) (· ∈ found) "Show, The".toList
        "/in/Show, The".toList "ep1".toList = some (found, ["eng".toList, "deu".toList]) ∧
      commaTokens (strvecJoin found ',') =
        ["/subs/Show".toList, " The/ep1.en.srt".toList, "/subs/Show".toList,
          " The/ep1.de.srt".toList] ∧
      commaTokens (strvecJoin ["eng".toList, "deu".toList] ',') = ["eng".toList, "deu".toList] := by
  intro cfg found
  refine ⟨by decide, by decide, by decide⟩

end Srt2Dvbsub.Batch
