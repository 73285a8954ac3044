import Srt2Dvbsub.Mux.Setup
import Srt2Dvbsub.SrtParser.Utf8

/-!
# Pango markup from the cue markup

The Pango renderer draws the text of a cue after `srt_to_pango_markup` (`render_pango.c`) has
turned it into Pango markup. The converter scans the text once into a buffer of
`maxlen = max(128, 4 len + 32)` bytes. `<i>`, `<b>` and `<u>` become spans with the style,
weight or underline attribute, and their closing tags `</span>`; `<font color="...">` becomes a
span with the foreground colour, and `</font>` `</span>`; the tags are recognized by
`strncasecmp`. `&`, `<` and `>` are escaped as entities and any other byte copied.

`pangoMarkupFrom` is the loop and `pangoStep` one pass of its body, with the bytes `remaining`
in the buffer. A pass writes its text and moves on, or stops the loop (`PangoPass`): the loop
stops when fewer than 17 bytes are left, and a pass stops it when its text does not fit in what
is left. A `<font ...>` tag that `sscanf` does not read as `<font color="...">` (another
attribute, or `FONT` in capitals) is not converted: its `<` is copied as it is.

`srtToPangoMarkup_length_lt` is the bound every pass keeps: the output and its NUL always fit
in the buffer. `srtToPangoMarkup_escapedPrefix` says what the converter does to a text without
`<`: it writes the escaped text of a prefix of it, so bytes are only lost at the end.
`srtToPangoMarkup_dropsInput` shows that they are: a run of `n` ampersands keeps
`min n ((maxlen - 12) / 5)` of them, all of them exactly when `n ≤ 23`; and the text
`<font face="Arial">Hi</font>` comes out with a bare `<` and a `</span>` that closes nothing.

Scope. Allocation never fails here, and the text is not `NULL`.
-/

set_option autoImplicit false
set_option relaxedAutoImplicit false

namespace Srt2Dvbsub.Render

open CLib Cli Mux SrtParser

/-! ### The loop of `srt_to_pango_markup` -/

/-- `sscanf(tmp, "<font color=\"%63[^\"]", color) == 1`: the bytes after `<font`, a run of
blanks (the blank of the format) and `color="`, up to 63 of them before the next double quote;
`none` when a literal of the format does not match or no byte is read. -/
def scanFontColor (tmp : List Char) : Option (List Char) :=
  if "<font".toList.isPrefixOf tmp then
    let afterBlanks := (tmp.drop 5).dropWhile isspace
    if "color=\"".toList.isPrefixOf afterBlanks then
      let color := ((afterBlanks.drop 7).takeWhile (fun c ↦ c != '"')).take 63
      if color = [] then none else some color
    else none
  else none

/-- What one pass of the loop does: append `out` and go on at the cursor `next`, or append
`out` and leave the loop. -/
inductive PangoPass where
  | write (out next : List Char)
  | stop (out : List Char)
  deriving DecidableEq, Repr

/-- A text of the converter's own: written when more than its length is left, else the loop
stops. -/
def pangoCopy (remaining : ℕ) (text next : List Char) : PangoPass :=
  if remaining ≤ text.length then .stop [] else .write text next

/-- The six tags tested first, in the order of the code, each with the text that replaces it;
`strncasecmp` compares the whole tag, and the cursor moves over it. -/
def pangoTags : List (List Char × List Char) :=
  [("<i>".toList, "<span style=\"italic\">".toList), ("</i>".toList, "</span>".toList),
    ("<b>".toList, "<span weight=\"bold\">".toList), ("</b>".toList, "</span>".toList),
    ("<u>".toList, "<span underline=\"single\">".toList), ("</u>".toList, "</span>".toList)]

/-- The entity written for `&`, `<` and `>`, and any other byte as it is. -/
def xmlEscape (c : Char) : List Char :=
  if c = '&' then "&amp;".toList
  else if c = '<' then "&lt;".toList
  else if c = '>' then "&gt;".toList
  else [c]

/-- The span for a `<font ...>` tag at the cursor `p`, with the text after its `>`: `end =
strchr(p, '>')`, and the colour read from `tmp`, the tag through `end` cut to 255 bytes. Both
branches of the code, `#RRGGBBAA` or not, write the same span. -/
def fontSpan (p : List Char) : Option (List Char × List Char) := do
  let afterEnd ← afterFirst '>' p
  let color ← scanFontColor ((p.take (p.length - afterEnd.length)).take 255)
  return ("<span foreground=\"".toList ++ color ++ "\">".toList, afterEnd)

/-- One pass of the loop body with the cursor `p` at the byte `c`, before the NUL, and
`remaining` bytes left in the buffer. -/
def pangoStep (remaining : ℕ) (c : Char) (rest : List Char) : PangoPass :=
  let p := c :: rest
  match pangoTags.find? (fun tag ↦ strncasecmpEq tag.1.length p tag.1) with
  | some (tag, span) => pangoCopy remaining span (p.drop tag.length)
  | none =>
    if strncasecmpEq 6 p "<font ".toList then
      match fontSpan p with
      | some (span, afterEnd) =>
        -- `snprintf` truncates to `remaining - 1` bytes, and the loop stops
        if remaining ≤ span.length then .stop (span.take (remaining - 1))
        else .write span afterEnd
      -- an unsupported tag: its `<` is copied
      | none => pangoCopy remaining [c] rest
    else if strncasecmpEq 7 p "</font>".toList then
      pangoCopy remaining "</span>".toList (p.drop 7)
    else pangoCopy remaining (xmlEscape c) rest

/-- What a pass may do at the cursor `p` with `remaining` bytes left: write less than that and
move the cursor some bytes on, or stop the loop after writing less than that. -/
def PassFits (remaining : ℕ) (p : List Char) : PangoPass → Prop
  | .write out next => out.length < remaining ∧ ∃ l, l ≠ [] ∧ p = l ++ next
  | .stop out => out.length ≤ remaining - 1

section Step

variable {remaining : ℕ} {c : Char} {rest out next : List Char}

/-- A text of the converter's own, the cursor `k` bytes on. -/
theorem passFits_pangoCopy (text : List Char) {k : ℕ} (hk : 0 < k) :
    PassFits remaining (c :: rest) (pangoCopy remaining text ((c :: rest).drop k)) := by
  unfold pangoCopy
  split_ifs with hfit
  · exact Nat.zero_le _
  · refine ⟨by omega, (c :: rest).take k, ?_, (List.take_append_drop k _).symm⟩
    obtain ⟨k, rfl⟩ := Nat.exists_eq_add_of_lt hk
    simp

/-- Every pass fits what is left of the buffer and moves the cursor on. -/
theorem passFits_pangoStep (remaining : ℕ) (c : Char) (rest : List Char) :
    PassFits remaining (c :: rest) (pangoStep remaining c rest) := by
  unfold pangoStep
  dsimp only
  split
  · rename_i tag span hfind
    have htag : (tag, span) ∈ pangoTags := List.mem_of_find?_eq_some hfind
    have hlen : ∀ entry ∈ pangoTags, 0 < entry.1.length := by decide
    exact passFits_pangoCopy span (hlen _ htag)
  · split_ifs
    · split
      · rename_i span afterEnd hspan
        split_ifs with hfit
        · show (span.take (remaining - 1)).length ≤ remaining - 1
          rw [List.length_take]
          omega
        · simp only [fontSpan, Option.bind_eq_bind, Option.bind_eq_some_iff, Option.pure_def,
            Option.some.injEq, Prod.mk.injEq] at hspan
          obtain ⟨after, hafter, color, -, -, rfl⟩ := hspan
          obtain ⟨pre, -, hsplit⟩ := afterFirst_eq_some hafter
          exact ⟨by omega, pre ++ ['>'], by simp, by rw [hsplit]; simp⟩
      · exact passFits_pangoCopy [c] (by omega : 0 < 1)
    · exact passFits_pangoCopy _ (by omega : 0 < 7)
    · exact passFits_pangoCopy _ (by omega : 0 < 1)

theorem length_lt_of_pangoStep (h : pangoStep remaining c rest = .write out next) :
    next.length < (c :: rest).length := by
  have hfits := passFits_pangoStep remaining c rest
  rw [h] at hfits
  obtain ⟨-, l, hl, hsplit⟩ := hfits
  rw [hsplit, List.length_append]
  have hpos := List.length_pos_iff.mpr hl
  omega

end Step

/-- The loop of `srt_to_pango_markup` from the cursor on, with `used` bytes of the `maxlen`-byte
buffer written: the bytes it appends. It stops at the NUL, when fewer than 17 bytes are left,
or when a pass stops it. -/
def pangoMarkupFrom (maxlen used : ℕ) : List Char → List Char
  | [] => []
  | c :: rest =>
    if used + 16 ≥ maxlen then []
    else
      match _hstep : pangoStep (maxlen - used) c rest with
      | .stop out => out
      | .write out next => out ++ pangoMarkupFrom maxlen (used + out.length) next
termination_by p => p.length
decreasing_by exact length_lt_of_pangoStep _hstep

/-- `srt_to_pango_markup(srt_text)`, on a text that is not `NULL`, every allocation
succeeding. -/
def srtToPangoMarkup (srtText : List Char) : List Char :=
  pangoMarkupFrom (max 128 (srtText.length * 4 + 32)) 0 srtText

/-! ### Bytes that open no tag -/

/-- `tolower` makes no `<` of another byte. -/
theorem tolower_ne_lt {c : Char} (hc : c ≠ '<') : tolower c ≠ '<' := by
  unfold tolower
  split_ifs with hupper
  · have hrange : 65 ≤ c.toNat ∧ c.toNat ≤ 90 := by
      simpa [char_le_iff] using hupper
    have hsmall : ∀ n < 91, 65 ≤ n → Char.ofNat (n + 32) ≠ '<' := by decide
    exact hsmall c.toNat (by omega) hrange.1
  · exact hc

/-- At a byte other than `<` no tag is read: the byte is escaped. -/
theorem pangoStep_of_ne_lt {remaining : ℕ} {c : Char} (rest : List Char) (hc : c ≠ '<') :
    pangoStep remaining c rest = pangoCopy remaining (xmlEscape c) rest := by
  have hlow : tolower c ≠ tolower '<' := tolower_ne_lt hc
  have hnone : pangoTags.find? (fun tag ↦ strncasecmpEq tag.1.length (c :: rest) tag.1) = none := by
    rw [List.find?_eq_none]
    intro tag htag
    have hhead : ∀ entry ∈ pangoTags, entry.1.head? = some '<' := by decide
    obtain ⟨t, ht⟩ := List.head?_eq_some_iff.mp (hhead tag htag)
    rw [ht, strncasecmpEq_cons_of_ne rest t (by simp) hlow]
    decide
  have hfont : strncasecmpEq 6 (c :: rest) "<font ".toList = false :=
    strncasecmpEq_cons_of_ne rest "font ".toList (by omega) hlow
  have hclose : strncasecmpEq 7 (c :: rest) "</font>".toList = false :=
    strncasecmpEq_cons_of_ne rest "/font>".toList (by omega) hlow
  simp only [pangoStep, hnone, hfont, hclose, Bool.false_eq_true, ↓reduceIte]

/-! ### The run -/

section Loop

variable {maxlen used : ℕ} {c : Char} {rest out next : List Char}

theorem pangoMarkupFrom_of_le (h : maxlen ≤ used + 16) :
    pangoMarkupFrom maxlen used (c :: rest) = [] := by
  rw [pangoMarkupFrom, if_pos h]

theorem pangoMarkupFrom_of_write (h : used + 16 < maxlen)
    (hstep : pangoStep (maxlen - used) c rest = .write out next) :
    pangoMarkupFrom maxlen used (c :: rest) = out ++ pangoMarkupFrom maxlen (used + out.length) next := by
  rw [pangoMarkupFrom, if_neg (by omega)]
  split
  · rename_i out' hstep'
    rw [hstep] at hstep'
    cases hstep'
  · rename_i out' next' hstep'
    rw [hstep, PangoPass.write.injEq] at hstep'
    rw [← hstep'.1, ← hstep'.2]

/-- The loop keeps the output and its NUL inside the buffer. -/
theorem length_pangoMarkupFrom_lt {p : List Char} (hused : used < maxlen) :
    used + (pangoMarkupFrom maxlen used p).length < maxlen := by
  fun_induction pangoMarkupFrom maxlen used p with
  | case1 => simpa using hused
  | case2 c rest hfull => simpa using hused
  | case3 used c rest hroom out hstep =>
    have hfits := passFits_pangoStep (maxlen - used) c rest
    rw [hstep] at hfits
    change out.length ≤ maxlen - used - 1 at hfits
    omega
  | case4 used c rest hroom out next hstep ih =>
    have hfits := passFits_pangoStep (maxlen - used) c rest
    rw [hstep] at hfits
    have hout : used + out.length < maxlen := by
      have := hfits.1
      omega
    have := ih hout
    rw [List.length_append]
    omega

/-- On a text without `<` the loop writes the escaped bytes of a prefix of the text. -/
theorem pangoMarkupFrom_escapedPrefix {p : List Char} (hp : '<' ∉ p) :
    ∃ k ≤ p.length, pangoMarkupFrom maxlen used p = (p.take k).flatMap xmlEscape := by
  fun_induction pangoMarkupFrom maxlen used p with
  | case1 => exact ⟨0, le_rfl, rfl⟩
  | case2 c rest hfull => exact ⟨0, Nat.zero_le _, rfl⟩
  | case3 used c rest hroom out hstep =>
    rw [pangoStep_of_ne_lt rest (fun h ↦ hp (h ▸ List.mem_cons_self)), pangoCopy] at hstep
    split_ifs at hstep
    cases hstep
    exact ⟨0, Nat.zero_le _, rfl⟩
  | case4 used c rest hroom out next hstep ih =>
    rw [pangoStep_of_ne_lt rest (fun h ↦ hp (h ▸ List.mem_cons_self)), pangoCopy] at hstep
    split_ifs at hstep
    rw [PangoPass.write.injEq] at hstep
    obtain ⟨rfl, rfl⟩ := hstep
    obtain ⟨k, hk, hrest⟩ := ih (fun h ↦ hp (List.mem_cons_of_mem c h))
    refine ⟨k + 1, by simp only [List.length_cons]; omega, ?_⟩
    rw [hrest, List.take_succ_cons, List.flatMap_cons]

/-- A run of ampersands: each written as `&amp;` while more than 16 bytes are left. -/
theorem pangoMarkupFrom_amps (maxlen : ℕ) : ∀ (k used : ℕ),
    pangoMarkupFrom maxlen used (List.replicate k '&') =
      (List.replicate (min k ((maxlen - 12 - used) / 5)) "&amp;".toList).flatten
  | 0, used => by
    rw [List.replicate_zero, pangoMarkupFrom, Nat.zero_min]
    rfl
  | k + 1, used => by
    rw [List.replicate_succ]
    by_cases hroom : used + 16 < maxlen
    · have hstep : pangoStep (maxlen - used) '&' (List.replicate k '&') =
          .write "&amp;".toList (List.replicate k '&') := by
        rw [pangoStep_of_ne_lt _ (by decide), pangoCopy, if_neg (by simp [xmlEscape]; omega)]
        rfl
      have hcount : min (k + 1) ((maxlen - 12 - used) / 5) =
          min k ((maxlen - 12 - (used + 5)) / 5) + 1 := by
        omega
      rw [pangoMarkupFrom_of_write hroom hstep, show "&amp;".toList.length = 5 from rfl,
        pangoMarkupFrom_amps maxlen k (used + 5), hcount, List.replicate_succ, List.flatten_cons]
    · have hcount : min (k + 1) ((maxlen - 12 - used) / 5) = 0 := by
        omega
      rw [pangoMarkupFrom_of_le (by omega), hcount]
      rfl

end Loop

/-- The output of `srt_to_pango_markup` and its NUL fit in the buffer it allocates. -/
theorem srtToPangoMarkup_length_lt (srtText : List Char) :
    (srtToPangoMarkup srtText).length < max 128 (srtText.length * 4 + 32) := by
  have hbound : 0 + (pangoMarkupFrom (max 128 (srtText.length * 4 + 32)) 0 srtText).length <
      max 128 (srtText.length * 4 + 32) :=
    length_pangoMarkupFrom_lt (by omega)
  rw [Nat.zero_add] at hbound
  exact hbound

/-- On a text without `<`, `srt_to_pango_markup` writes the escaped bytes of a prefix of the
text: bytes are never reordered or repeated, only lost at the end. -/
theorem srtToPangoMarkup_escapedPrefix {srtText : List Char} (htext : '<' ∉ srtText) :
    ∃ k ≤ srtText.length, srtToPangoMarkup srtText = (srtText.take k).flatMap xmlEscape :=
  pangoMarkupFrom_escapedPrefix htext

/-- `Tom & Jerry > Spike`, escaped whole. -/
theorem srtToPangoMarkup_escapedPrefix_tomAndJerry :
    '<' ∉ "Tom & Jerry > Spike".toList ∧
      ∃ k ≤ "Tom & Jerry > Spike".toList.length,
        srtToPangoMarkup "Tom & Jerry > Spike".toList =
          ("Tom & Jerry > Spike".toList.take k).flatMap xmlEscape :=
  ⟨by decide, srtToPangoMarkup_escapedPrefix (by decide)⟩

/-- The converter loses bytes of well-formed cues. A run of `n` ampersands keeps
`min n ((maxlen - 12) / 5)` of them, so all of them only when `n ≤ 23`; and
`<font face="Arial">Hi</font>` comes out with its `<` bare and a `</span>` that closes
nothing. -/
theorem srtToPangoMarkup_dropsInput (n : ℕ) :
    srtToPangoMarkup (List.replicate n '&') =
        (List.replicate (min n ((max 128 (n * 4 + 32) - 12) / 5)) "&amp;".toList).flatten ∧
      (min n ((max 128 (n * 4 + 32) - 12) / 5) = n ↔ n ≤ 23) ∧
      srtToPangoMarkup "<font face=\"Arial\">Hi</font>".toList =
        "<font face=\"Arial\"&gt;Hi</span>".toList := by
  refine ⟨?_, by omega, by decide +kernel⟩
  rw [srtToPangoMarkup, List.length_replicate, pangoMarkupFrom_amps, Nat.sub_zero]

end Srt2Dvbsub.Render
