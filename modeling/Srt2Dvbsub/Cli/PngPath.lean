import Srt2Dvbsub.Cli.Options

/-!
# The PNG output directory

`png_path.c` keeps the directory that debug PNGs are written to in `dbg_png_output_dir`, with a
flag `png_path_explicitly_set` (`PngPathState`). `init_png_path` sets it up. It is called with
the `--png-dir` argument and, in debug and PNG-only runs, with `NULL` for the default `pngs/`.
It tries the requested directory with `ensure_directory` and falls back to
`/tmp/srt2dvbsub.<pid>.pngs/` (`pngFallbackPath`). Every message goes to the caller's 256-byte
buffer through `snprintf`.

`ensure_directory` (`ensureDirectory`) rejects an empty path and one of `PATH_MAX` bytes or
more, strips one trailing `/`, and then asks the file system: `is_dir_writable`, `mkdir`, and
`is_dir_writable` again when `mkdir` reports `EEXIST` (`FileSystem`). `initPngPath` takes the
directory check as a parameter, so the results below hold for every outcome of the checks.

* `initPngPath_failed_unchanged`: a call that returns `-1` leaves the state as it was; every
  call returns `0` or `-1`.
* `initPngPath_custom`: with a `--png-dir` path the contract holds. A `0` leaves a directory that
  passed the check, and a `-1` means that the path and the fallback both failed. This needs
  the check to reject paths of `PATH_MAX` bytes, as `ensure_directory` does
  (`ensureDirectory_ok_length`). The "path too long" branch after a passed check is then dead,
  and `initPngPath_customDir` is the contract over `ensure_directory` itself.
* `initPngPath_defaultFallbackSwapped`: after the default `pngs/` fails, the fallback's result
  is tested with the opposite polarity. The call returns `0`, with the fallback as the
  directory, exactly when the fallback fails. It returns `-1` exactly when the fallback passed.

Scope. `errmsg == NULL` is left out: every caller passes a buffer of 256 bytes. `strerror` enters
as the text `mkdir` fails with.
-/

set_option autoImplicit false
set_option relaxedAutoImplicit false

namespace Srt2Dvbsub.Cli

/-- `snprintf(errmsg, 256, ...)`: the caller's buffer keeps 255 bytes of the text. -/
def snprintf256 (s : List Char) : List Char := s.take 255

/-- The directory state of `png_path.c`: `dbg_png_output_dir` and `png_path_explicitly_set`. -/
structure PngPathState where
  dir : List Char
  explicitlySet : Bool
  deriving DecidableEq, Repr

/-- The static initial values: `"pngs/"`, not explicitly set. -/
def PngPathState.init : PngPathState := ⟨"pngs/".toList, false⟩

/-- The reason `mkdir` fails: `EEXIST`, or another error with its `strerror` text. -/
inductive MkdirError where
  | eexist
  | other (strerror : List Char)
  deriving DecidableEq, Repr

/-- What `ensure_directory` asks the file system: `is_dir_writable` and `mkdir(path, 0755)`. -/
structure FileSystem where
  isDirWritable : List Char → Bool
  mkdir : List Char → Except MkdirError Unit

/-- `ensure_directory(path, errmsg)`: `.ok ()` for `0`, and the message it writes for `-1`. -/
def ensureDirectory (fs : FileSystem) (path : List Char) : Except (List Char) Unit :=
  if path = [] then .error (snprintf256 "Directory path is empty".toList)
  else if path.length ≥ PATH_MAX then
    .error (snprintf256 ("Directory path too long (max ".toList ++ Nat.toDigits 10 (PATH_MAX - 1) ++
      [')']))
  else
    let pathCopy := if path.getLast? = some '/' then path.dropLast else path
    if fs.isDirWritable pathCopy then .ok ()
    else
      match fs.mkdir pathCopy with
      | .ok () => .ok ()
      | .error .eexist =>
        if fs.isDirWritable pathCopy then .ok ()
        else .error (snprintf256 ("Directory exists but not writable: ".toList ++ pathCopy))
      | .error (.other strerror) =>
        .error (snprintf256 ("Cannot create directory ".toList ++ pathCopy ++ ": ".toList ++ strerror))

/-- `"/tmp/srt2dvbsub.%d.pngs/"` with the process id. -/
def pngFallbackPath (pid : ℕ) : List Char :=
  "/tmp/srt2dvbsub.".toList ++ Nat.toDigits 10 pid ++ ".pngs/".toList

/-- `init_png_path(custom_path, errmsg)` with the directory check `ensure` and the process id:
the return value, the new state and the caller's buffer. -/
def initPngPath (ensure : List Char → Except (List Char) Unit) (pid : ℕ)
    (customPath : Option (List Char)) (st : PngPathState) (errmsg : List Char) :
    ℤ × PngPathState × List Char :=
  -- a path set by `--png-dir` is not replaced by the default
  if st.explicitlySet ∧ customPath = none then (0, st, errmsg)
  else
    let targetPath := customPath.getD "pngs/".toList
    match ensure targetPath with
    | .ok () =>
      if targetPath.length ≥ PATH_MAX then
        (-1, st, snprintf256 ("PNG path too long (max ".toList ++ Nat.toDigits 10 (PATH_MAX - 1) ++
          [')']))
      else (0, ⟨targetPath, customPath.isSome || st.explicitlySet⟩, errmsg)
    | .error tmpErrmsg =>
      let fallbackPath := pngFallbackPath pid
      match customPath with
      | some _ =>
        match ensure fallbackPath with
        | .ok () =>
          (0, ⟨fallbackPath, true⟩, snprintf256 ("PNG path ".toList ++ targetPath.take 50 ++
            " failed, falling back to ".toList ++ fallbackPath.take 50))
        | .error err =>
          (-1, st, snprintf256 ("PNG path initialization failed: ".toList ++ err.take 200))
      | none =>
        -- the default path's fallback is taken when `ensure_directory` returns non-zero
        match ensure fallbackPath with
        | .error _ =>
          (0, { st with dir := fallbackPath },
            snprintf256 ("Default PNG path failed, using fallback ".toList ++ fallbackPath.take 50))
        | .ok () => (-1, st, snprintf256 ("PNG path initialization failed: ".toList ++ tmpErrmsg))

/-! ### The directory check -/

/-- A passed check is for a non-empty path shorter than `PATH_MAX`. -/
theorem ensureDirectory_ok_length (fs : FileSystem) {path : List Char}
    (hok : ensureDirectory fs path = .ok ()) : path ≠ [] ∧ path.length < PATH_MAX := by
  unfold ensureDirectory at hok
  by_cases hempty : path = []
  · simp [hempty] at hok
  · by_cases hlong : path.length ≥ PATH_MAX
    · simp [hempty, hlong] at hok
    · exact ⟨hempty, by omega⟩

/-! ### `init_png_path` -/

section InitPngPath

variable (ensure : List Char → Except (List Char) Unit) (pid : ℕ) (customPath : Option (List Char))
  (st : PngPathState) (errmsg : List Char)

/-- Every call returns `0` or `-1`, and one that returns `-1` leaves the directory and the flag
as they were. -/
theorem initPngPath_failed_unchanged :
    ((initPngPath ensure pid customPath st errmsg).1 = 0 ∨
      (initPngPath ensure pid customPath st errmsg).1 = -1) ∧
    ((initPngPath ensure pid customPath st errmsg).1 = -1 →
      (initPngPath ensure pid customPath st errmsg).2.1 = st) := by
  unfold initPngPath
  split_ifs
  · simp
  · dsimp only
    split
    · split_ifs <;> simp
    · split <;> split <;> simp

/-- A `--png-dir` path that passes the check and fits `dbg_png_output_dir` becomes the
directory. -/
theorem initPngPath_some_of_ok {path : List Char} (hok : ensure path = .ok ())
    (hshort : path.length < PATH_MAX) :
    initPngPath ensure pid (some path) st errmsg = (0, ⟨path, true⟩, errmsg) := by
  unfold initPngPath
  rw [if_neg (by simp)]
  dsimp only
  rw [Option.getD_some, hok]
  simp only [if_neg (Nat.not_le.mpr hshort), Option.isSome_some, Bool.true_or]

/-- A `--png-dir` path that fails the check: the outcome is the fallback's. -/
theorem initPngPath_some_of_error {path msg : List Char} (herr : ensure path = .error msg) :
    initPngPath ensure pid (some path) st errmsg =
      match ensure (pngFallbackPath pid) with
      | .ok () =>
        (0, ⟨pngFallbackPath pid, true⟩, snprintf256 ("PNG path ".toList ++ path.take 50 ++
          " failed, falling back to ".toList ++ (pngFallbackPath pid).take 50))
      | .error err =>
        (-1, st, snprintf256 ("PNG path initialization failed: ".toList ++ err.take 200)) := by
  unfold initPngPath
  rw [if_neg (by simp)]
  dsimp only
  rw [Option.getD_some, herr]

/-- The default path, not set before, failing the check: the outcome is the fallback's, with
the test of its result the other way round. -/
theorem initPngPath_none_of_error {msg : List Char} (hnotSet : st.explicitlySet = false)
    (herr : ensure "pngs/".toList = .error msg) :
    initPngPath ensure pid none st errmsg =
      match ensure (pngFallbackPath pid) with
      | .error _ =>
        (0, { st with dir := pngFallbackPath pid },
          snprintf256 ("Default PNG path failed, using fallback ".toList ++
            (pngFallbackPath pid).take 50))
      | .ok () => (-1, st, snprintf256 ("PNG path initialization failed: ".toList ++ msg)) := by
  unfold initPngPath
  rw [if_neg (by simp [hnotSet])]
  dsimp only
  rw [Option.getD_none, herr]

/-- With a `--png-dir` path, for a check that rejects paths of `PATH_MAX` bytes: a `0` leaves a
directory that passed the check and marks it explicitly set, and a `-1` means that the path and
the fallback both failed. -/
theorem initPngPath_custom (path : List Char)
    (hbounded : ∀ p, ensure p = .ok () → p.length < PATH_MAX) :
    let r := initPngPath ensure pid (some path) st errmsg
    (r.1 = 0 → ensure r.2.1.dir = .ok () ∧ r.2.1.explicitlySet = true) ∧
      (r.1 = -1 → ensure path ≠ .ok () ∧ ensure (pngFallbackPath pid) ≠ .ok ()) := by
  dsimp only
  cases hpath : ensure path with
  | ok u =>
    rw [initPngPath_some_of_ok ensure pid st errmsg hpath (hbounded path hpath)]
    refine ⟨fun _ ↦ ⟨hpath, rfl⟩, fun h ↦ ?_⟩
    simp at h
  | error msg =>
    rw [initPngPath_some_of_error ensure pid st errmsg hpath]
    cases hfallback : ensure (pngFallbackPath pid) with
    | ok u =>
      refine ⟨fun _ ↦ ⟨hfallback, rfl⟩, fun h ↦ ?_⟩
      simp at h
    | error err =>
      refine ⟨fun h ↦ ?_, fun _ ↦ ⟨nofun, nofun⟩⟩
      simp at h

end InitPngPath

/-- `init_png_path` with a `--png-dir` path on any file system: it returns `0` or `-1`. A `0`
leaves a directory that passes `ensure_directory`, marked explicitly set. A `-1` means that
the path and the fallback both failed, and leaves the state as it was. The length test after a
passed `ensure_directory` never fires, since that check already rejects `PATH_MAX` bytes. -/
theorem initPngPath_customDir (fs : FileSystem) (pid : ℕ) (path : List Char) (st : PngPathState)
    (errmsg : List Char) :
    let r := initPngPath (ensureDirectory fs) pid (some path) st errmsg
    (r.1 = 0 ∨ r.1 = -1) ∧
      (r.1 = 0 → ensureDirectory fs r.2.1.dir = .ok () ∧ r.2.1.explicitlySet = true) ∧
      (r.1 = -1 → ensureDirectory fs path ≠ .ok () ∧
        ensureDirectory fs (pngFallbackPath pid) ≠ .ok () ∧ r.2.1 = st) := by
  intro r
  obtain ⟨hret, hunchanged⟩ :=
    initPngPath_failed_unchanged (ensureDirectory fs) pid (some path) st errmsg
  have hbounded : ∀ p, ensureDirectory fs p = .ok () → p.length < PATH_MAX :=
    fun _ hok ↦ (ensureDirectory_ok_length fs hok).2
  obtain ⟨hok, hfailed⟩ := initPngPath_custom (ensureDirectory fs) pid st errmsg path hbounded
  exact ⟨hret, hok, fun h ↦ ⟨(hfailed h).1, (hfailed h).2, hunchanged h⟩⟩

/-- The default path, not set before, failing its check: the fallback's result is read the
wrong way round. The call returns `0` with the fallback as the directory exactly when the
fallback fails the check, and `-1`, with the state unchanged, exactly when the fallback passed
it. -/
theorem initPngPath_defaultFallbackSwapped (ensure : List Char → Except (List Char) Unit) (pid : ℕ)
    (st : PngPathState) (errmsg : List Char) (hnotSet : st.explicitlySet = false)
    (hdefault : ensure "pngs/".toList ≠ .ok ()) :
    let r := initPngPath ensure pid none st errmsg
    (r.1 = 0 ∧ r.2.1.dir = pngFallbackPath pid ↔ ensure (pngFallbackPath pid) ≠ .ok ()) ∧
      (r.1 = -1 ↔ ensure (pngFallbackPath pid) = .ok ()) ∧ (r.1 = -1 → r.2.1 = st) := by
  obtain ⟨msg, hmsg⟩ : ∃ msg, ensure "pngs/".toList = .error msg := by
    cases h : ensure "pngs/".toList with
    | ok u => exact absurd h hdefault
    | error msg => exact ⟨msg, rfl⟩
  dsimp only
  rw [initPngPath_none_of_error ensure pid st errmsg hnotSet hmsg]
  cases hfallback : ensure (pngFallbackPath pid) with
  | ok u =>
    refine ⟨?_, ⟨fun _ ↦ rfl, fun _ ↦ rfl⟩, fun _ ↦ rfl⟩
    simp
  | error err =>
    refine ⟨⟨fun _ ↦ nofun, fun _ ↦ ⟨rfl, rfl⟩⟩, ?_, fun h ↦ ?_⟩
    · simp
    · simp at h

/-- A file system where `pngs` cannot be created and every other directory is writable: the
default path fails, its fallback passes, and `init_png_path(NULL, errmsg)` returns `-1`. -/
theorem initPngPath_defaultFallbackSwapped_pngsDenied :
    let fs : FileSystem :=
      ⟨fun p ↦ p ≠ "pngs".toList, fun _ ↦ .error (.other "Permission denied".toList)⟩
    let r := initPngPath (ensureDirectory fs) 1234 none PngPathState.init []
    ((r.1 = 0 ∧ r.2.1.dir = pngFallbackPath 1234 ↔
        ensureDirectory fs (pngFallbackPath 1234) ≠ .ok ()) ∧
      (r.1 = -1 ↔ ensureDirectory fs (pngFallbackPath 1234) = .ok ()) ∧
      (r.1 = -1 → r.2.1 = PngPathState.init)) ∧
    r.2.2 = "PNG path initialization failed: Cannot create directory pngs: Permission denied".toList := by
  intro fs r
  have hdefault : ensureDirectory fs "pngs/".toList =
      .error "Cannot create directory pngs: Permission denied".toList := by
    decide
  refine ⟨initPngPath_defaultFallbackSwapped (ensureDirectory fs) 1234 PngPathState.init [] rfl
    (by rw [hdefault]; exact nofun), ?_⟩
  have hfallback : ensureDirectory fs (pngFallbackPath 1234) = .ok () := by
    decide
  dsimp only [r]
  rw [initPngPath_none_of_error (ensureDirectory fs) 1234 PngPathState.init [] rfl hdefault,
    hfallback]
  decide

end Srt2Dvbsub.Cli
