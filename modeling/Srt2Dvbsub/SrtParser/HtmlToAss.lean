import Srt2Dvbsub.Mux.Setup
import Srt2Dvbsub.Render.Color
import Srt2Dvbsub.SrtParser.Utf8

/-!
# ASS override tags from the cue markup

A track rendered through libass gets its events from `ctx_parse_tracks` (`srt2dvbsub.c`), which
converts the text of each cue with `srt_html_to_ass` (`srt_parser.c`). The converter scans the
text once. `<i>`, `</i>`, `<b>` and `</b>` become `{\i1}`, `{\i0}`, `{\b1}` and `{\b0}`,
`</font>` the reset `{\r}` and a newline the hard break `\N`; a carriage return is dropped and
any other byte copied. `<font color="...">` becomes a primary colour override `{\1c&H..&}` and
`<font face="...">` a font override `{\fn...}`. The tags are recognized with `strncasecmp`, so
up to case.

`srtHtmlToAssFrom` is the loop and `htmlToAssStep` one pass of its body; `htmlToAssStep_cursor`
says where a pass can leave the cursor. After a font tag the cursor is set two bytes past the
closing quote, where a `>` is assumed. When the closing quote is the last byte of the text, that
is one byte past the terminating NUL, and the C loop reads on beyond the string; the model ends
such a run in `AssText.pastEnd`. `srtHtmlToAss_fontTagAtEnd` gives that run for every value of
either tag, and `srtHtmlToAss_done_of_getLast` shows that it is the only way out of the string:
on a text that does not end in a double quote, the loop stops at the NUL.

`parse_ass_color` reads an override `{\c&HBBGGRR&}` or `{\1c&HBBGGRR&}` back as the Pango colour
`#RRGGBB`; `normalize_tags` turns such a tag into a span with it. The tag written for
`<font color="#RRGGBB">` prints the channels red, green, blue, in the places where ASS and
`parse_ass_color` read blue, green, red, and where `render_ass_hex_to_ass_color` writes them.
`srtHtmlToAss_fontColorSwapsRedBlue` gives the tag for every six-digit colour: the colour read
back from it is `#BBGGRR`, the colour written exactly when red and blue agree.
-/

set_option autoImplicit false
set_option relaxedAutoImplicit false

namespace Srt2Dvbsub.SrtParser

open CLib Cli Mux Render

/-! ### `parse_ass_color` -/

/-- `parse_ass_color(tag, out, outsz)`: the colour of an override `{\c&HBBGGRR&}` or
`{\1c&HBBGGRR&}` at the start of `tag`, as `#RRGGBB`, and white when neither form reads three
channels. `snprintf` keeps `outsz - 1` bytes. -/
def parseAssColor (tag : List Char) (outsz : ℕ) : List Char :=
  let out : List Char :=
    match sscanf tag "\x7b\\c&H%02X%02X%02X&\x7d".toList,
        sscanf tag "\x7b\\1c&H%02X%02X%02X&\x7d".toList with
    | [b, g, r], _ => '#' :: printfHex02 r.toNat ++ printfHex02 g.toNat ++ printfHex02 b.toNat
    | _, [b, g, r] => '#' :: printfHex02 r.toNat ++ printfHex02 g.toNat ++ printfHex02 b.toNat
    | _, _ => "#FFFFFF".toList
  out.take (outsz - 1)

/-! ### `srt_html_to_ass` -/

/-- The value between the first two double quotes of the text at the cursor `p`, and the text
after the second: `q = strchr(p, '"')`, `r = strchr(q + 1, '"')`, the bytes from `q + 1` up to
`r`, and the text at `r + 1`. -/
def quotedValue (p : List Char) : Option (List Char × List Char) := do
  let afterOpen ← afterFirst '"' p
  let afterClose ← afterFirst '"' afterOpen
  return (afterOpen.takeWhile (fun c ↦ c != '"'), afterClose)

/-- The override written for the value of `<font color="...">`, cut to the 15 bytes of
`color[16]`. `#RRGGBB` and `#AARRGGBB` are read with `%02x`, a channel that is not read keeping
`255`; a value of nine bytes also gets the alpha override `\1a`, whose byte counts
transparency. The tag never fills `tag[96]`. -/
def fontColorTag (color : List Char) : List Char :=
  let clen := color.length
  let vals : List ℤ :=
    if color.head? = some '#' ∧ clen = 7 then sscanf color.tail "%02x%02x%02x".toList
    else if color.head? = some '#' ∧ clen = 9 then sscanf color.tail "%02x%02x%02x%02x".toList
    else []
  let rr := (vals.getD 0 255).toNat
  let gg := (vals.getD 1 255).toNat
  let bb := (vals.getD 2 255).toNat
  let aa := (vals.getD 3 255).toNat
  if clen = 9 then
    "\x7b\\1c&H".toList ++ printfHex02 rr ++ printfHex02 gg ++ printfHex02 bb ++
      "&\\1a&H".toList ++ printfHex02 (255 - (aa &&& 0xFF)) ++ "&\x7d".toList
  else "\x7b\\1c&H".toList ++ printfHex02 rr ++ printfHex02 gg ++ printfHex02 bb ++ "&\x7d".toList

/-- The override written for the value of `<font face="...">`, cut to the 63 bytes of
`face[64]`. -/
def fontFaceTag (face : List Char) : List Char :=
  "\x7b\\fn".toList ++ face ++ "\x7d".toList

/-- The four tags tested first, in the order of the code, each with its override;
`strncasecmp` compares the whole tag, and the cursor moves over it. -/
def assTags : List (List Char × List Char) :=
  [("<i>".toList, "\x7b\\i1\x7d".toList), ("</i>".toList, "\x7b\\i0\x7d".toList),
    ("<b>".toList, "\x7b\\b1\x7d".toList), ("</b>".toList, "\x7b\\b0\x7d".toList)]

/-- What a byte that is no tag becomes: a newline the hard break `\N`, a carriage return
nothing, and any other byte itself. -/
def assByte (c : Char) : List Char :=
  if c = '\n' then "\\N".toList
  else if c = '\r' then []
  else [c]

/-- One pass of the loop body of `srt_html_to_ass` with the cursor `p` at the byte `c`, before
the NUL: the text appended to the output, and the cursor after the pass, `none` when it lies
past the terminating NUL. A font tag without two double quotes is passed by one byte. -/
def htmlToAssStep (c : Char) (rest : List Char) : List Char × Option (List Char) :=
  let p := c :: rest
  match assTags.find? (fun tag ↦ strncasecmpEq tag.1.length p tag.1) with
  | some (tag, override) => (override, some (p.drop tag.length))
  | none =>
    if strncasecmpEq 12 p "<font color=".toList then
      match quotedValue p with
      -- `p = r + 2`: over the closing quote and the byte after it
      | some (color, afterClose) => (fontColorTag (color.take 15), afterClose.tail?)
      | none => ([], some rest)
    else if strncasecmpEq 11 p "<font face=".toList then
      match quotedValue p with
      | some (face, afterClose) => (fontFaceTag (face.take 63), afterClose.tail?)
      | none => ([], some rest)
    else if strncasecmpEq 7 p "</font>".toList then ("\x7b\\r\x7d".toList, some (p.drop 7))
    else (assByte c, some rest)

/-- What `srt_html_to_ass` leaves: the output when the loop stops at the terminating NUL, or the
output written until the cursor moved past it. -/
inductive AssText where
  | done (out : List Char)
  | pastEnd (out : List Char)
  deriving DecidableEq, Repr

/-- The result with `chunk` written before it. -/
def AssText.prepend (chunk : List Char) : AssText → AssText
  | .done out => .done (chunk ++ out)
  | .pastEnd out => .pastEnd (chunk ++ out)

/-- Whether the cursor moved past the NUL. -/
def AssText.isPastEnd : AssText → Bool
  | .done _ => false
  | .pastEnd _ => true

@[simp] theorem AssText.isPastEnd_prepend (chunk : List Char) (r : AssText) :
    (r.prepend chunk).isPastEnd = r.isPastEnd := by
  cases r <;> rfl

/-! ### Where a pass leaves the cursor -/

section Quoted

variable {p value afterClose : List Char}

theorem takeWhile_ne_quote (value after : List Char) (hvalue : '"' ∉ value) :
    (value ++ '"' :: after).takeWhile (fun c ↦ c != '"') = value := by
  rw [List.takeWhile_append_of_pos (fun c hc ↦ by simpa using ne_of_mem_of_not_mem hc hvalue)]
  simp

/-- `quotedValue` splits the text at its first two double quotes. -/
theorem quotedValue_eq_some (h : quotedValue p = some (value, afterClose)) :
    ∃ pre, '"' ∉ pre ∧ '"' ∉ value ∧ p = pre ++ '"' :: (value ++ '"' :: afterClose) := by
  simp only [quotedValue, Option.bind_eq_bind, Option.bind_eq_some_iff, Option.pure_def,
    Option.some.injEq, Prod.mk.injEq] at h
  obtain ⟨afterOpen, hopen, afterClose', hclose, hvalue, rfl⟩ := h
  obtain ⟨pre, hpre, rfl⟩ := afterFirst_eq_some hopen
  obtain ⟨mid, hmid, rfl⟩ := afterFirst_eq_some hclose
  rw [takeWhile_ne_quote mid afterClose' hmid] at hvalue
  subst hvalue
  exact ⟨pre, hpre, hmid, rfl⟩

theorem quotedValue_append (pre : List Char) (hpre : '"' ∉ pre) (hvalue : '"' ∉ value) :
    quotedValue (pre ++ '"' :: (value ++ '"' :: afterClose)) = some (value, afterClose) := by
  simp [quotedValue, afterFirst_append_cons _ hpre, afterFirst_append_cons _ hvalue,
    takeWhile_ne_quote value afterClose hvalue]

end Quoted

section Step

variable {c : Char} {rest chunk next : List Char}

/-- What a pass can do with the cursor: move it some bytes on, or put it two bytes past the
closing quote of a font tag. -/
theorem htmlToAssStep_cursor (c : Char) (rest : List Char) :
    (∃ k, 0 < k ∧ (htmlToAssStep c rest).2 = some ((c :: rest).drop k)) ∨
      ∃ value afterClose, quotedValue (c :: rest) = some (value, afterClose) ∧
        (htmlToAssStep c rest).2 = afterClose.tail? := by
  unfold htmlToAssStep
  dsimp only
  split
  · rename_i tag override hfind
    have htag : (tag, override) ∈ assTags := List.mem_of_find?_eq_some hfind
    have hlen : ∀ entry ∈ assTags, 0 < entry.1.length := by decide
    exact .inl ⟨tag.length, hlen _ htag, rfl⟩
  · split_ifs
    · split
      · rename_i color afterClose hquoted
        exact .inr ⟨color, afterClose, hquoted, rfl⟩
      · exact .inl ⟨1, by omega, rfl⟩
    · split
      · rename_i face afterClose hquoted
        exact .inr ⟨face, afterClose, hquoted, rfl⟩
      · exact .inl ⟨1, by omega, rfl⟩
    · exact .inl ⟨7, by omega, rfl⟩
    · exact .inl ⟨1, by omega, rfl⟩

/-- A pass that keeps the cursor in the text leaves it on a proper suffix. -/
theorem htmlToAssStep_some (h : (htmlToAssStep c rest).2 = some next) :
    ∃ l, l ≠ [] ∧ c :: rest = l ++ next := by
  rcases htmlToAssStep_cursor c rest with ⟨k, hk, hstep⟩ | ⟨value, afterClose, hquoted, hstep⟩
  · rw [h, Option.some.injEq] at hstep
    refine ⟨(c :: rest).take k, ?_, by rw [hstep, List.take_append_drop]⟩
    obtain ⟨k, rfl⟩ := Nat.exists_eq_add_of_lt hk
    simp
  · obtain ⟨pre, -, -, hsplit⟩ := quotedValue_eq_some hquoted
    rw [h] at hstep
    cases afterClose with
    | nil => cases hstep
    | cons x after =>
      rw [List.tail?_cons, Option.some.injEq] at hstep
      subst hstep
      exact ⟨pre ++ '"' :: (value ++ ['"', x]), by simp, by rw [hsplit]; simp⟩

/-- A pass moves the cursor past the NUL only at a closing quote that ends the text. -/
theorem htmlToAssStep_none (h : (htmlToAssStep c rest).2 = none) :
    (c :: rest).getLast? = some '"' := by
  rcases htmlToAssStep_cursor c rest with ⟨k, -, hstep⟩ | ⟨value, afterClose, hquoted, hstep⟩
  · rw [h] at hstep
    cases hstep
  · obtain ⟨pre, -, -, hsplit⟩ := quotedValue_eq_some hquoted
    rw [h] at hstep
    cases afterClose with
    | nil =>
      rw [hsplit, ← List.cons_append, ← List.append_assoc, List.getLast?_concat]
    | cons x after => cases hstep

theorem length_lt_of_htmlToAssStep (h : htmlToAssStep c rest = (chunk, some next)) :
    next.length < (c :: rest).length := by
  obtain ⟨l, hl, hsplit⟩ := htmlToAssStep_some (by rw [h])
  have hlen := congrArg List.length hsplit
  rw [List.length_append] at hlen
  have hpos := List.length_pos_iff.mpr hl
  omega

end Step

/-- The loop of `srt_html_to_ass` from the cursor on: it stops at the NUL, or when a pass moves
the cursor past it. -/
def srtHtmlToAssFrom : List Char → AssText
  | [] => .done []
  | c :: rest =>
    match _hstep : htmlToAssStep c rest with
    | (chunk, none) => .pastEnd chunk
    | (chunk, some next) => (srtHtmlToAssFrom next).prepend chunk
termination_by p => p.length
decreasing_by exact length_lt_of_htmlToAssStep _hstep

/-- `srt_html_to_ass(in)`, on a string that is not `NULL` and with every allocation
succeeding. -/
def srtHtmlToAss (input : List Char) : AssText :=
  srtHtmlToAssFrom input

/-! ### The run -/

section Loop

variable {c : Char} {rest chunk next : List Char}

theorem srtHtmlToAssFrom_of_none (h : htmlToAssStep c rest = (chunk, none)) :
    srtHtmlToAssFrom (c :: rest) = .pastEnd chunk := by
  rw [srtHtmlToAssFrom]
  split
  · rename_i chunk' hstep
    rw [h, Prod.mk.injEq] at hstep
    rw [hstep.1]
  · rename_i chunk' next' hstep
    rw [h, Prod.mk.injEq] at hstep
    cases hstep.2

theorem srtHtmlToAssFrom_of_some (h : htmlToAssStep c rest = (chunk, some next)) :
    srtHtmlToAssFrom (c :: rest) = (srtHtmlToAssFrom next).prepend chunk := by
  rw [srtHtmlToAssFrom]
  split
  · rename_i chunk' hstep
    rw [h, Prod.mk.injEq] at hstep
    cases hstep.2
  · rename_i chunk' next' hstep
    rw [h, Prod.mk.injEq, Option.some.injEq] at hstep
    rw [hstep.1, hstep.2]

/-- The run leaves the string only at a closing quote that ends it. -/
theorem getLast?_of_isPastEnd {p : List Char} (h : (srtHtmlToAssFrom p).isPastEnd = true) :
    p.getLast? = some '"' := by
  fun_induction srtHtmlToAssFrom p with
  | case1 => cases h
  | case2 c rest chunk hstep => exact htmlToAssStep_none (by rw [hstep])
  | case3 c rest chunk next hstep ih =>
    rw [AssText.isPastEnd_prepend] at h
    have hlast := ih h
    obtain ⟨l, -, hsplit⟩ := htmlToAssStep_some (by rw [hstep])
    have hnext : next ≠ [] := by
      rintro rfl
      cases hlast
    rw [hsplit, List.getLast?_append_of_ne_nil _ hnext, hlast]

end Loop

/-! ### Font tags -/

section FontTags

variable {value : List Char}

/-- A pass at `<font color="value"`: the override for the value, and the cursor two bytes past
the closing quote. -/
theorem htmlToAssStep_fontColor (after : List Char) (hvalue : '"' ∉ value) :
    htmlToAssStep '<' ("font color=\"".toList ++ (value ++ '"' :: after)) =
      (fontColorTag (value.take 15), after.tail?) := by
  have hp : '<' :: ("font color=\"".toList ++ (value ++ '"' :: after)) =
      "<font color=\"".toList ++ (value ++ '"' :: after) := by
    simp
  have hquoted : quotedValue ("<font color=\"".toList ++ (value ++ '"' :: after)) =
      some (value, after) := by
    rw [show "<font color=\"".toList = "<font color=".toList ++ ['"'] by simp, List.append_assoc]
    exact quotedValue_append _ (by decide) hvalue
  have hnone : assTags.find? (fun tag ↦ strncasecmpEq tag.1.length
      ("<font color=\"".toList ++ (value ++ '"' :: after)) tag.1) = none :=
    find?_strncasecmpEq_append_eq_none assTags _ (by decide)
  have hcolor : strncasecmpEq 12 ("<font color=\"".toList ++ (value ++ '"' :: after))
      "<font color=".toList = true := by
    rw [strncasecmpEq_append _ _ (by decide)]
    decide
  simp only [htmlToAssStep, hp, hnone, hcolor, ↓reduceIte, hquoted]

/-- A pass at `<font face="value"`: the override for the value, and the cursor two bytes past
the closing quote. -/
theorem htmlToAssStep_fontFace (after : List Char) (hvalue : '"' ∉ value) :
    htmlToAssStep '<' ("font face=\"".toList ++ (value ++ '"' :: after)) =
      (fontFaceTag (value.take 63), after.tail?) := by
  have hp : '<' :: ("font face=\"".toList ++ (value ++ '"' :: after)) =
      "<font face=\"".toList ++ (value ++ '"' :: after) := by
    simp
  have hquoted : quotedValue ("<font face=\"".toList ++ (value ++ '"' :: after)) =
      some (value, after) := by
    rw [show "<font face=\"".toList = "<font face=".toList ++ ['"'] by simp, List.append_assoc]
    exact quotedValue_append _ (by decide) hvalue
  have hnone : assTags.find? (fun tag ↦ strncasecmpEq tag.1.length
      ("<font face=\"".toList ++ (value ++ '"' :: after)) tag.1) = none :=
    find?_strncasecmpEq_append_eq_none assTags _ (by decide)
  have hcolor : strncasecmpEq 12 ("<font face=\"".toList ++ (value ++ '"' :: after))
      "<font color=".toList = false := by
    rw [strncasecmpEq_append _ _ (by decide)]
    decide
  have hface : strncasecmpEq 11 ("<font face=\"".toList ++ (value ++ '"' :: after))
      "<font face=".toList = true := by
    rw [strncasecmpEq_append _ _ (by decide)]
    decide
  simp only [htmlToAssStep, hp, hnone, hcolor, hface, Bool.false_eq_true, ↓reduceIte, hquoted]

/-- The override for `#RRGGBB`: the three pairs, in the order they are written. -/
theorem fontColorTag_six {digits : List Char} {r g b : ℕ}
    (hhex : ∀ c ∈ digits, isxdigit c = true) (hlen : digits.length = 6)
    (hpairs : hexPairs digits = [r, g, b]) :
    fontColorTag ('#' :: digits) =
      "\x7b\\1c&H".toList ++ printfHex02 r ++ printfHex02 g ++ printfHex02 b ++
        "&\x7d".toList := by
  have hvals : sscanf digits "%02x%02x%02x".toList = [(r : ℤ), g, b] := by
    rw [sscanf, parseFormat_hex_three, scanf_hex_pairs 3 hhex (by rw [hlen]), hpairs]
    rfl
  unfold fontColorTag
  simp only [hvals, List.length_cons, hlen, List.head?_cons, List.tail_cons, and_self,
    Nat.reduceAdd, Nat.reduceEqDiff, ↓reduceIte, List.getD_cons_zero, List.getD_cons_succ,
    Int.toNat_natCast]

end FontTags

/-- `parse_ass_color` on a `{\1c&H..&}` override: the three printed bytes are read as blue,
green and red, and written back in the order red, green, blue. -/
theorem parseAssColor_primaryTag {x y z : ℕ} (hx : x < 256) (hy : y < 256) (hz : z < 256)
    (after : List Char) (outsz : ℕ) :
    parseAssColor ("\x7b\\1c&H".toList ++ printfHex02 x ++ printfHex02 y ++ printfHex02 z ++
        "&\x7d".toList ++ after) outsz =
      ('#' :: printfHex02 z ++ printfHex02 y ++ printfHex02 x).take (outsz - 1) := by
  simp only [List.append_assoc]
  have hfirst : sscanf ("\x7b\\1c&H".toList ++ (printfHex02 x ++ (printfHex02 y ++
      (printfHex02 z ++ ("&\x7d".toList ++ after))))) "\x7b\\c&H%02X%02X%02X&\x7d".toList = [] := by
    have hfmt : parseFormat "\x7b\\c&H%02X%02X%02X&\x7d".toList =
        "\x7b\\".toList.map .literal ++ .literal 'c' :: parseFormat "&H%02X%02X%02X&\x7d".toList := by
      decide
    rw [sscanf, hfmt, show "\x7b\\1c&H".toList = "\x7b\\".toList ++ "1c&H".toList by simp,
      List.append_assoc, scanf_literals_append]
    rfl
  have hsecond : sscanf ("\x7b\\1c&H".toList ++ (printfHex02 x ++ (printfHex02 y ++
      (printfHex02 z ++ ("&\x7d".toList ++ after))))) "\x7b\\1c&H%02X%02X%02X&\x7d".toList =
      [(x : ℤ), y, z] := by
    have hfmt : parseFormat "\x7b\\1c&H%02X%02X%02X&\x7d".toList =
        "\x7b\\1c&H".toList.map .literal ++
          (.hex 2 :: .hex 2 :: .hex 2 :: ("&\x7d".toList.map .literal ++ [])) := by
      decide +kernel
    rw [sscanf, hfmt, scanf_literals_append, scanf_printfHex02 hx, scanf_printfHex02 hy,
      scanf_printfHex02 hz, scanf_literals_append]
    rfl
  simp only [parseAssColor, hfirst, hsecond, Int.toNat_natCast, List.append_assoc]


/-! ### The cursor at the end of the text -/

/-- A font tag whose closing quote ends the text: the override is written, and the cursor is
left one byte past the terminating NUL. -/
theorem srtHtmlToAss_fontTagAtEnd {value : List Char} (hvalue : '"' ∉ value) :
    srtHtmlToAss ("<font color=\"".toList ++ value ++ "\"".toList) =
        .pastEnd (fontColorTag (value.take 15)) ∧
      srtHtmlToAss ("<font face=\"".toList ++ value ++ "\"".toList) =
        .pastEnd (fontFaceTag (value.take 63)) := by
  have hcolor : "<font color=\"".toList ++ value ++ "\"".toList =
      '<' :: ("font color=\"".toList ++ (value ++ ['"'])) := by
    rw [List.append_assoc]
    rfl
  have hface : "<font face=\"".toList ++ value ++ "\"".toList =
      '<' :: ("font face=\"".toList ++ (value ++ ['"'])) := by
    rw [List.append_assoc]
    rfl
  constructor
  · rw [srtHtmlToAss, hcolor, srtHtmlToAssFrom_of_none (htmlToAssStep_fontColor [] hvalue)]
  · rw [srtHtmlToAss, hface, srtHtmlToAssFrom_of_none (htmlToAssStep_fontFace [] hvalue)]

/-- `<font color="red"` and `<font face="red"` at the end of a cue. -/
theorem srtHtmlToAss_fontTagAtEnd_red :
    '"' ∉ "red".toList ∧
      srtHtmlToAss ("<font color=\"".toList ++ "red".toList ++ "\"".toList) =
          .pastEnd (fontColorTag ("red".toList.take 15)) ∧
        srtHtmlToAss ("<font face=\"".toList ++ "red".toList ++ "\"".toList) =
          .pastEnd (fontFaceTag ("red".toList.take 63)) :=
  ⟨by decide, srtHtmlToAss_fontTagAtEnd (by decide)⟩

/-- On a text that does not end in a double quote, the loop stops at the terminating NUL. -/
theorem srtHtmlToAss_done_of_getLast {s : List Char} (hlast : s.getLast? ≠ some '"') :
    ∃ out, srtHtmlToAss s = .done out := by
  cases hrun : srtHtmlToAss s with
  | done out => exact ⟨out, rfl⟩
  | pastEnd out =>
    have hpast : (srtHtmlToAssFrom s).isPastEnd = true := by
      rw [← srtHtmlToAss, hrun]
      rfl
    exact absurd (getLast?_of_isPastEnd hpast) hlast

/-- A cue with italics, bold and a colour, ending in a tag's `>`. -/
theorem srtHtmlToAss_done_of_getLast_tags :
    "<i>Hi</i> <b><font color=\"#FFFFFF\">x</font></b>".toList.getLast? ≠ some '"' ∧
      ∃ out, srtHtmlToAss "<i>Hi</i> <b><font color=\"#FFFFFF\">x</font></b>".toList =
        .done out :=
  ⟨by decide, srtHtmlToAss_done_of_getLast (by decide)⟩

/-! ### The colour override -/

/-- The override `srt_html_to_ass` writes for `<font color="#RRGGBB">`, whatever text follows:
the channels printed red, green, blue. `parse_ass_color` reads it back as `#BBGGRR`, the colour
written only when red and blue agree, and `render_ass_hex_to_ass_color` puts blue, green, red
in those places. -/
theorem srtHtmlToAss_fontColorSwapsRedBlue {digits rest after : List Char} {r g b : ℕ}
    (hhex : ∀ c ∈ digits, isxdigit c = true) (hlen : digits.length = 6)
    (hpairs : hexPairs digits = [r, g, b]) :
    let tag := "\x7b\\1c&H".toList ++ printfHex02 r ++ printfHex02 g ++ printfHex02 b ++
      "&\x7d".toList
    srtHtmlToAss ("<font color=\"#".toList ++ digits ++ "\">".toList ++ rest) =
        (srtHtmlToAss rest).prepend tag ∧
      parseAssColor (tag ++ after) 16 = '#' :: printfHex02 b ++ printfHex02 g ++ printfHex02 r ∧
      (parseAssColor (tag ++ after) 16 = '#' :: printfHex02 r ++ printfHex02 g ++ printfHex02 b ↔
        r = b) ∧
      renderAssHexToAssColor (some ('#' :: digits)) = formatAssColor 0xFF b g r := by
  intro tag
  have hlt := lt_of_mem_hexPairs hhex
  have hr : r < 256 := hlt r (by simp [hpairs])
  have hg : g < 256 := hlt g (by simp [hpairs])
  have hb : b < 256 := hlt b (by simp [hpairs])
  have hprinted : ∀ x < 256, (printfHex02 x).length = 2 := fun x hx ↦ (printfHex02_of_lt hx).1
  have hparse :
      parseAssColor (tag ++ after) 16 = '#' :: printfHex02 b ++ printfHex02 g ++ printfHex02 r := by
    rw [parseAssColor_primaryTag hr hg hb after 16]
    apply List.take_of_length_le
    simp [hprinted r hr, hprinted g hg, hprinted b hb]
  refine ⟨?_, hparse, ?_, renderAssHexToAssColor_six hhex hlen hpairs⟩
  · have hquote : '"' ∉ '#' :: digits := by
      rw [List.mem_cons, not_or]
      exact ⟨by decide, fun hmem ↦ absurd (hhex '"' hmem) (by decide)⟩
    have hinput : "<font color=\"#".toList ++ digits ++ "\">".toList ++ rest =
        '<' :: ("font color=\"".toList ++ (('#' :: digits) ++ '"' :: ('>' :: rest))) := by
      simp only [List.append_assoc]
      rfl
    rw [srtHtmlToAss, hinput,
      srtHtmlToAssFrom_of_some (htmlToAssStep_fontColor ('>' :: rest) hquote),
      List.take_of_length_le (by simp [hlen]), fontColorTag_six hhex hlen hpairs]
    rfl
  · rw [hparse]
    constructor
    · intro heq
      have hsplit := List.append_inj (List.cons.inj heq).2
        (by simp [hprinted r hr, hprinted g hg, hprinted b hb])
      exact printfHex02_inj hr hb hsplit.2
    · rintro rfl
      rfl

/-- `<font color="#FF0000">Red</font>`: the override `{\1c&HFF0000&}`, read back as
`#0000FF`. -/
theorem srtHtmlToAss_fontColorSwapsRedBlue_red :
    (∀ c ∈ "FF0000".toList, isxdigit c = true) ∧ "FF0000".toList.length = 6 ∧
      hexPairs "FF0000".toList = [255, 0, 0] ∧
      let tag := "\x7b\\1c&H".toList ++ printfHex02 255 ++ printfHex02 0 ++ printfHex02 0 ++
        "&\x7d".toList
      srtHtmlToAss ("<font color=\"#".toList ++ "FF0000".toList ++ "\">".toList ++
          "Red</font>".toList) = (srtHtmlToAss "Red</font>".toList).prepend tag ∧
        parseAssColor (tag ++ []) 16 =
          '#' :: printfHex02 0 ++ printfHex02 0 ++ printfHex02 255 ∧
        (parseAssColor (tag ++ []) 16 =
            '#' :: printfHex02 255 ++ printfHex02 0 ++ printfHex02 0 ↔ 255 = 0) ∧
        renderAssHexToAssColor (some ('#' :: "FF0000".toList)) = formatAssColor 0xFF 0 0 255 := by
  have hhex : ∀ c ∈ "FF0000".toList, isxdigit c = true := by simp [isxdigit, isdigit]
  have hpairs : hexPairs "FF0000".toList = [255, 0, 0] := by decide
  exact ⟨hhex, rfl, hpairs, srtHtmlToAss_fontColorSwapsRedBlue hhex rfl hpairs⟩

end Srt2Dvbsub.SrtParser
