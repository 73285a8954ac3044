import Srt2Dvbsub.Lib.List
import Srt2Dvbsub.SrtParser.Parse

/-!
# The events of an ASS track

On the libass path `ctx_parse_tracks` (`srt2dvbsub.c`) parses each subtitle file with
`parse_srt_cfg` and hands every cue to `render_ass_add_event` (`render_ass.c`), its times shifted
by the track's delay, after `srt_html_to_ass` has turned its HTML tags into ASS overrides. The
event stores the start and the duration clamped to `int`, the style `0`, and the text after
`ass_normalize_linebreaks`, which turns every CRLF, lone CR and lone LF into the two characters
`\N`.

`ass_normalize_linebreaks` sizes its buffer in a first pass, one byte more for each CR and LF,
and writes it in a second pass in which a CRLF takes two bytes for two. `assNormalizeLinebreaks_spec`
shows that the writes stay inside the buffer, that no CR or LF is left, and that a text without
CR comes out as its lines joined with `\N`.

libass enters through `ass_alloc_event`, a parameter (`AssLib`) with the behaviour the libass
documentation gives it: a new slot after the events there, or `-1` when it cannot allocate one,
and then `render_ass_add_event` adds nothing. `ctxLoadAssEvents_sublist` is the loop of
`ctx_parse_tracks`: the events are those of the cues, in order, less those whose slot could not
be allocated, and all of them when every allocation succeeds. `ctxLoadAssEvents_parseSrtCfg`
carries the timeline of the parser (`Timeline`) to the track: every event has a duration
between `0` and `INT_MAX`, the precondition `render_ass_add_event` leaves to its callers, and
when the shifted times fit in an `int` no event ends after the next one starts.

Scope. `malloc` and `strdup` succeed, so no text is `NULL`. `srt_html_to_ass` enters the loop
as a parameter: the results hold for every conversion.
-/

set_option autoImplicit false
set_option relaxedAutoImplicit false

namespace Srt2Dvbsub.Render

open CLib SrtParser

/-! ### `ass_normalize_linebreaks` -/

/-- A CR or an LF: the bytes the first pass of `ass_normalize_linebreaks` counts. -/
def isLineBreak (c : Char) : Bool :=
  c == '\r' || c == '\n'

/-- The second pass of `ass_normalize_linebreaks` from the index `i` on: a CR, with the LF after
it when there is one, and a lone LF become `\N`; every other byte is copied. -/
def normalizeLinebreaksFrom : List Char → List Char
  | [] => []
  | '\r' :: '\n' :: rest => '\\' :: 'N' :: normalizeLinebreaksFrom rest
  | '\r' :: rest => '\\' :: 'N' :: normalizeLinebreaksFrom rest
  | '\n' :: rest => '\\' :: 'N' :: normalizeLinebreaksFrom rest
  | c :: rest => c :: normalizeLinebreaksFrom rest

/-- `ass_normalize_linebreaks(text)`: `""` for `NULL` and for the empty string, else the second
pass over the whole text. -/
def assNormalizeLinebreaks : Option (List Char) → List Char
  | none => []
  | some text => if text = [] then [] else normalizeLinebreaksFrom text

/-- `out_len`: the bytes the first pass allocates, the text with one more for each CR or LF, and
the NUL. -/
def linebreakBufferLen (text : List Char) : ℕ :=
  text.length + text.countP isLineBreak + 1

/-- The second pass writes at least one byte for each byte it reads, and at most two for a CR or
an LF. -/
theorem length_normalizeLinebreaksFrom (text : List Char) :
    text.length ≤ (normalizeLinebreaksFrom text).length ∧
      (normalizeLinebreaksFrom text).length ≤ text.length + text.countP isLineBreak := by
  fun_induction normalizeLinebreaksFrom text with
  | case1 => simp
  | case2 rest =>
    simp only [List.length_cons, List.countP_cons, isLineBreak]
    simp
    omega
  | case3 rest =>
    simp only [List.length_cons, List.countP_cons, isLineBreak]
    simp
    omega
  | case4 rest =>
    simp only [List.length_cons, List.countP_cons, isLineBreak]
    simp
    omega
  | case5 c rest =>
    simp only [List.length_cons, List.countP_cons]
    omega

/-- The second pass leaves no CR and no LF. -/
theorem isLineBreak_of_mem_normalizeLinebreaksFrom (text : List Char) :
    ∀ c ∈ normalizeLinebreaksFrom text, isLineBreak c = false := by
  fun_induction normalizeLinebreaksFrom text with
  | case1 => simp
  | case2 rest ih => simpa [isLineBreak] using ih
  | case3 rest =>
    have ih : ∀ c ∈ normalizeLinebreaksFrom rest, isLineBreak c = false := by assumption
    simpa [isLineBreak] using ih
  | case4 rest ih => simpa [isLineBreak] using ih
  | case5 c rest =>
    have hcr : c ≠ '\r' := ‹c = '\r' → False›
    have hlf : c ≠ '\n' := ‹c = '\n' → False›
    have ih : ∀ c ∈ normalizeLinebreaksFrom rest, isLineBreak c = false := by assumption
    simp only [List.mem_cons, forall_eq_or_imp]
    exact ⟨by simp [isLineBreak, hcr, hlf], ih⟩

/-- On a text without CR the second pass joins the lines of the text with `\N`. -/
theorem normalizeLinebreaksFrom_of_no_cr (text : List Char) (hcr : '\r' ∉ text) :
    normalizeLinebreaksFrom text = ['\\', 'N'].intercalate (text.splitOn '\n') := by
  fun_induction normalizeLinebreaksFrom text with
  | case1 => rfl
  | case2 rest => simp at hcr
  | case3 rest => simp at hcr
  | case4 rest ih =>
    rw [ih (fun h ↦ hcr (List.mem_cons_of_mem _ h)), Lib.splitOn_cons_self,
      Lib.intercalate_nil_cons _ (Lib.splitOn_ne_nil _ _)]
    rfl
  | case5 c rest =>
    have hlf : c ≠ '\n' := ‹c = '\n' → False›
    have ih : '\r' ∉ rest →
        normalizeLinebreaksFrom rest = ['\\', 'N'].intercalate (rest.splitOn '\n') := by
      assumption
    rw [ih (fun h ↦ hcr (List.mem_cons_of_mem _ h)), Lib.splitOn_cons_of_ne hlf,
      Lib.intercalate_modifyHead_cons _ _ (Lib.splitOn_ne_nil _ _)]

/-- `ass_normalize_linebreaks` on a text that is not `NULL`: it writes at least as many bytes as
the text has and, with its NUL, no more than the `out_len` bytes its first pass allocated; it
leaves no CR and no LF; and a text without CR comes out as its lines, split at LF, joined with
`\N`. -/
theorem assNormalizeLinebreaks_spec (text : List Char) :
    text.length ≤ (assNormalizeLinebreaks (some text)).length ∧
      (assNormalizeLinebreaks (some text)).length + 1 ≤ linebreakBufferLen text ∧
      '\r' ∉ assNormalizeLinebreaks (some text) ∧ '\n' ∉ assNormalizeLinebreaks (some text) ∧
      ('\r' ∉ text →
        assNormalizeLinebreaks (some text) = ['\\', 'N'].intercalate (text.splitOn '\n')) := by
  by_cases hnil : text = []
  · subst hnil
    simp [assNormalizeLinebreaks, linebreakBufferLen]
  · have hout : assNormalizeLinebreaks (some text) = normalizeLinebreaksFrom text := if_neg hnil
    obtain ⟨hlow, hhigh⟩ := length_normalizeLinebreaksFrom text
    have hbreaks := isLineBreak_of_mem_normalizeLinebreaksFrom text
    refine ⟨hout ▸ hlow, ?_, fun h ↦ ?_, fun h ↦ ?_, fun h ↦ ?_⟩
    · rw [hout, linebreakBufferLen]
      omega
    · simpa [isLineBreak] using hbreaks '\r' (hout ▸ h)
    · simpa [isLineBreak] using hbreaks '\n' (hout ▸ h)
    · rw [hout, normalizeLinebreaksFrom_of_no_cr text h]

/-! ### `render_ass_add_event` -/

/-- The fields of an `ASS_Event` that `render_ass_add_event` writes: `Start`, `Duration`, `Style`
and `Text`. -/
structure AssEvent where
  start : ℤ
  duration : ℤ
  style : ℤ
  text : List Char
  deriving DecidableEq, Repr

/-- An `int64_t` stored in an `int` field of the event, clamped to `[INT_MIN, INT_MAX]`. -/
def clampToInt (v : ℤ) : ℤ :=
  if v < INT_MIN then INT_MIN else if v > INT_MAX then INT_MAX else v

/-- What `render_ass_add_event` calls of libass, with what the libass documentation says of
it. -/
structure AssLib where
  /-- `ass_alloc_event(track)` on the events of the track: the index it returns and the events
  after the call, or `none` for `-1`. -/
  allocEvent : List AssEvent → Option (ℕ × List AssEvent)
  /-- The new slot goes after the events already there, and its index is returned. -/
  allocEvent_eq_some : ∀ events ev slots, allocEvent events = some (ev, slots) →
    ev = events.length ∧ ∃ blank, slots = events ++ [blank]

/-- `render_ass_add_event(track, text, start_ms, end_ms)` on the events of the track, `none` for
a `NULL` track. A failed allocation adds nothing, and a slot outside the events is left
blank. -/
def renderAssAddEvent (lib : AssLib) (track : Option (List AssEvent)) (text : Option (List Char))
    (startMs endMs : ℤ) : Option (List AssEvent) :=
  match track with
  | none => none
  | some events =>
    match lib.allocEvent events with
    | none => some events
    | some (ev, slots) =>
      if ev < slots.length then
        some (slots.set ev
          ⟨clampToInt startMs, clampToInt (endMs - startMs), 0, assNormalizeLinebreaks text⟩)
      else some slots

section Clamp

variable {v : ℤ}

theorem clampToInt_le (v : ℤ) : clampToInt v ≤ INT_MAX := by
  unfold clampToInt INT_MIN INT_MAX
  split_ifs <;> omega

theorem clampToInt_nonneg (h : 0 ≤ v) : 0 ≤ clampToInt v := by
  unfold clampToInt INT_MIN INT_MAX
  split_ifs <;> omega

theorem clampToInt_le_self (h : INT_MIN ≤ v) : clampToInt v ≤ v := by
  unfold clampToInt
  split_ifs <;> omega

theorem clampToInt_of_mem (hlow : INT_MIN ≤ v) (hhigh : v ≤ INT_MAX) : clampToInt v = v := by
  unfold clampToInt
  split_ifs <;> omega

end Clamp

/-! ### The events of a subtitle file -/

/-- The event `render_ass_add_event` adds for a cue, its times shifted by `delayMs`. -/
def cueEvent (toAss : List Char → List Char) (delayMs : ℤ) (e : SRTEntry) : AssEvent :=
  ⟨clampToInt (e.startMs + delayMs), clampToInt (e.endMs + delayMs - (e.startMs + delayMs)), 0,
    assNormalizeLinebreaks (some (toAss e.text))⟩

/-- The loop of `ctx_parse_tracks` over the parsed cues of a subtitle file on the libass path:
the text of each cue through `srt_html_to_ass` (`toAss`), its times shifted by the track's
delay. -/
def ctxLoadAssEvents (lib : AssLib) (toAss : List Char → List Char) (delayMs : ℤ)
    (entries : List SRTEntry) (track : Option (List AssEvent)) : Option (List AssEvent) :=
  entries.foldl (fun track e ↦
    renderAssAddEvent lib track (some (toAss e.text)) (e.startMs + delayMs) (e.endMs + delayMs))
    track

/-- Every allocation of an event slot succeeds. -/
def AssLib.AllocSucceeds (lib : AssLib) : Prop :=
  ∀ events, (lib.allocEvent events).isSome

/-- What one call adds to a track: the cue's event, or nothing when no slot was allocated. -/
theorem renderAssAddEvent_cases (lib : AssLib) (events : List AssEvent) (toAss : List Char → List Char)
    (delayMs : ℤ) (e : SRTEntry) :
    (lib.allocEvent events = none ∧
        renderAssAddEvent lib (some events) (some (toAss e.text)) (e.startMs + delayMs)
          (e.endMs + delayMs) = some events) ∨
      renderAssAddEvent lib (some events) (some (toAss e.text)) (e.startMs + delayMs)
        (e.endMs + delayMs) = some (events ++ [cueEvent toAss delayMs e]) := by
  rcases halloc : lib.allocEvent events with _ | ⟨ev, slots⟩
  · refine .inl ⟨rfl, ?_⟩
    simp only [renderAssAddEvent, halloc]
  · obtain ⟨rfl, blank, rfl⟩ := lib.allocEvent_eq_some events ev slots halloc
    refine .inr ?_
    simp only [renderAssAddEvent, halloc]
    rw [if_pos (by simp)]
    simp [List.set_append_right, cueEvent]

/-- The loop adds the events of the cues in order, less those of the cues whose slot could not
be allocated: all of them when every allocation succeeds. -/
theorem ctxLoadAssEvents_sublist (lib : AssLib) (toAss : List Char → List Char) (delayMs : ℤ) :
    ∀ (entries : List SRTEntry) (events : List AssEvent),
      ∃ added, ctxLoadAssEvents lib toAss delayMs entries (some events) = some (events ++ added) ∧
        added.Sublist (entries.map (cueEvent toAss delayMs)) ∧
        (lib.AllocSucceeds → added = entries.map (cueEvent toAss delayMs))
  | [], events => ⟨[], by simp [ctxLoadAssEvents], List.Sublist.slnil, fun _ ↦ rfl⟩
  | e :: entries, events => by
    rcases renderAssAddEvent_cases lib events toAss delayMs e with ⟨hnone, hstep⟩ | hstep
    · obtain ⟨added, hloop, hsub, hall⟩ := ctxLoadAssEvents_sublist lib toAss delayMs entries events
      refine ⟨added, ?_, hsub.cons _, fun hok ↦ absurd (hok events) (by simp [hnone])⟩
      rw [ctxLoadAssEvents, List.foldl_cons, hstep, ← ctxLoadAssEvents, hloop]
    · obtain ⟨added, hloop, hsub, hall⟩ :=
        ctxLoadAssEvents_sublist lib toAss delayMs entries (events ++ [cueEvent toAss delayMs e])
      refine ⟨cueEvent toAss delayMs e :: added, ?_, hsub.cons_cons _, fun hok ↦ ?_⟩
      · rw [ctxLoadAssEvents, List.foldl_cons, hstep, ← ctxLoadAssEvents, hloop,
          List.append_assoc, List.singleton_append]
      · rw [List.map_cons, hall hok]

/-- An event that ends no later than the next one starts, both of non-negative duration: on
such events the order is transitive, so it passes to the events a loop keeps. -/
def EndsBefore (a b : AssEvent) : Prop :=
  0 ≤ a.duration ∧ a.start + a.duration ≤ b.start ∧ 0 ≤ b.duration

instance : Trans EndsBefore EndsBefore EndsBefore :=
  ⟨fun ⟨ha, hab, _⟩ ⟨hb, hbc, hc⟩ ↦ ⟨ha, by omega, hc⟩⟩

/-- The event of a cue of non-negative duration has a duration between `0` and `INT_MAX`. -/
theorem cueEvent_duration_mem (toAss : List Char → List Char) (delayMs : ℤ) {e : SRTEntry}
    (he : e.startMs ≤ e.endMs) :
    0 ≤ (cueEvent toAss delayMs e).duration ∧ (cueEvent toAss delayMs e).duration ≤ INT_MAX :=
  ⟨clampToInt_nonneg (by omega), clampToInt_le _⟩

/-- Two consecutive cues of a timeline whose shifted times fit in an `int` give events in
order: the clamp leaves their times as they are. -/
theorem cueEvent_endsBefore (toAss : List Char → List Char) (delayMs : ℤ) {a b : SRTEntry}
    (ha : a.startMs ≤ a.endMs) (hb : b.startMs ≤ b.endMs)
    (hfa : INT_MIN ≤ a.startMs + delayMs ∧ a.endMs + delayMs ≤ INT_MAX)
    (hfb : INT_MIN ≤ b.startMs + delayMs ∧ b.endMs + delayMs ≤ INT_MAX)
    (htouch : Touching a b) :
    EndsBefore (cueEvent toAss delayMs a) (cueEvent toAss delayMs b) := by
  have hmin : INT_MIN ≤ 0 := by decide
  have hdur := clampToInt_le_self (v := a.endMs + delayMs - (a.startMs + delayMs)) (by omega)
  unfold Touching at htouch
  refine ⟨(cueEvent_duration_mem toAss delayMs ha).1, ?_,
    (cueEvent_duration_mem toAss delayMs hb).1⟩
  simp only [cueEvent]
  rw [clampToInt_of_mem hfa.1 (by omega), clampToInt_of_mem hfb.1 (by omega)]
  omega

/-- The track `ctx_parse_tracks` builds on the libass path from the cues of `parse_srt_cfg`, for
every file, configuration, conversion, delay and libass: the events of the cues in order, one
per cue when every allocation succeeds, every duration between `0` and `INT_MAX`, and, when the
shifted times of the cues fit in an `int`, no event ending after the next one starts. -/
theorem ctxLoadAssEvents_parseSrtCfg (lib : AssLib) (ops : CueTextOps) (cfg : SRTParserConfig)
    (lines : List (List Char)) (toAss : List Char → List Char) (delayMs : ℤ) :
    let entries := parseSrtCfg ops cfg lines
    ∃ events, ctxLoadAssEvents lib toAss delayMs entries (some []) = some events ∧
      events.Sublist (entries.map (cueEvent toAss delayMs)) ∧
      (lib.AllocSucceeds → events.length = entries.length) ∧
      (∀ ev ∈ events, 0 ≤ ev.duration ∧ ev.duration ≤ INT_MAX) ∧
      ((∀ e ∈ entries, INT_MIN ≤ e.startMs + delayMs ∧ e.endMs + delayMs ≤ INT_MAX) →
        events.IsChain fun a b ↦ a.start + a.duration ≤ b.start) := by
  intro entries
  have htimeline : Timeline entries :=
    timeline_parseSrtInternal ops cfg.useAss cfg.videoW cfg.videoH lines
  obtain ⟨events, hloop, hsub, hall⟩ := ctxLoadAssEvents_sublist lib toAss delayMs entries []
  rw [List.nil_append] at hloop
  refine ⟨events, hloop, hsub, fun hok ↦ by rw [hall hok, List.length_map], fun ev hev ↦ ?_,
    fun hfit ↦ ?_⟩
  · obtain ⟨e, he, rfl⟩ := List.mem_map.mp (hsub.subset hev)
    exact cueEvent_duration_mem toAss delayMs (htimeline.start_le_end e he)
  · have hchain : (entries.map (cueEvent toAss delayMs)).IsChain EndsBefore := by
      rw [List.isChain_map]
      exact htimeline.chain.imp_of_mem_imp fun a b ha hb htouch ↦
        cueEvent_endsBefore toAss delayMs (htimeline.start_le_end a ha)
          (htimeline.start_le_end b hb) (hfit a ha) (hfit b hb) htouch
    exact (hchain.sublist hsub).imp fun a b h ↦ h.2.1

end Srt2Dvbsub.Render
