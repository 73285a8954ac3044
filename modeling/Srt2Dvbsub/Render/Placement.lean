import Mathlib

/-!
# Where a rendered cue is placed on the canvas

On success `render_text_pango` (`render_pango.c`) hands the size `w × h` of the bitmap it drew
to `cleanup_render_resources`, which stores the bitmap's origin. The origin comes from the
cue's `SubtitlePosition`, one of nine places of a 3 × 3 grid, and the four margins of its
`SubtitlePositionConfig` converted to pixels: a column at the left margin, centred with half the
net margin, or at the right margin from the edge (`bitmapX`), and a row in the same three ways
(`bitmapY`). Without a configuration the bitmap is centred. Then each coordinate is clamped to
the canvas (`clampOrigin`): a negative one is set to `0`, and one that lets the bitmap run over
the far edge is set to `disp - size`.

The second step of the clamp undoes the first when the bitmap is larger than the canvas.
`cleanupRenderResources_origin` gives the stored origin for every position, margin and size: a
bitmap that fits the canvas lies inside it, and one wider or taller than the canvas is placed at
`disp - size`, a negative coordinate.

Scope. The margins enter in pixels: every statement holds for all integer values, and so for
every result of the conversion `(int)(disp * margin / 100.0)`. The coordinates are integers
without the bound of `int`.
-/

set_option autoImplicit false
set_option relaxedAutoImplicit false

namespace Srt2Dvbsub.Render

/-- `SubtitlePosition` (`runtime_opts.h`): the nine places of a 3 × 3 grid on the canvas. -/
inductive SubtitlePosition where
  | topLeft
  | topCenter
  | topRight
  | midLeft
  | midCenter
  | midRight
  | botLeft
  | botCenter
  | botRight
  deriving DecidableEq, Repr

/-- The margins of a `SubtitlePositionConfig` in pixels: `margin_top_px`, `margin_left_px`,
`margin_bottom_px` and `margin_right_px`. -/
structure MarginsPx where
  top : ℤ
  left : ℤ
  bottom : ℤ
  right : ℤ
  deriving DecidableEq, Repr

/-- The geometry `cleanup_render_resources` stores in the `Bitmap`: `x`, `y`, `w` and `h`. -/
structure BitmapGeometry where
  x : ℤ
  y : ℤ
  w : ℤ
  h : ℤ
  deriving DecidableEq, Repr

/-- The column of the bitmap before the clamp; `/` of C truncates toward zero. -/
def bitmapX (position : SubtitlePosition) (margins : MarginsPx) (w dispW : ℤ) : ℤ :=
  match position with
  | .topLeft | .midLeft | .botLeft => margins.left
  | .topRight | .midRight | .botRight => dispW - w - margins.right
  | .topCenter | .midCenter | .botCenter =>
    (dispW - w).tdiv 2 + (margins.left - margins.right).tdiv 2

/-- The row of the bitmap before the clamp. -/
def bitmapY (position : SubtitlePosition) (margins : MarginsPx) (h dispH : ℤ) : ℤ :=
  match position with
  | .topLeft | .topCenter | .topRight => margins.top
  | .midLeft | .midCenter | .midRight =>
    (dispH - h).tdiv 2 + (margins.top - margins.bottom).tdiv 2
  | .botLeft | .botCenter | .botRight => dispH - h - margins.bottom

/-- The clamp of one coordinate to the canvas: `if (x < 0) x = 0;` and then
`if (x + size > disp) x = disp - size;`. -/
def clampOrigin (x size disp : ℤ) : ℤ :=
  let x := if x < 0 then 0 else x
  if x + size > disp then disp - size else x

/-- `cleanup_render_resources(success, bm, w, h, disp_w, disp_h, pos_config, ...)` on the
bitmap's geometry; `pos_config` is `NULL` for `none`. A failed render leaves the bitmap alone. -/
def cleanupRenderResources (success : Bool) (bm : BitmapGeometry) (w h dispW dispH : ℤ)
    (posConfig : Option (SubtitlePosition × MarginsPx)) : BitmapGeometry :=
  if success then
    let origin : ℤ × ℤ :=
      match posConfig with
      | some (position, margins) =>
        (bitmapX position margins w dispW, bitmapY position margins h dispH)
      | none => ((dispW - w).tdiv 2, (dispH - h).tdiv 2)
    ⟨clampOrigin origin.1 w dispW, clampOrigin origin.2 h dispH, w, h⟩
  else bm

/-! ### The clamp -/

section Clamp

variable {x size disp : ℤ}

/-- A size that fits the canvas is clamped inside it, whatever the coordinate. -/
theorem clampOrigin_of_le (hfit : size ≤ disp) :
    0 ≤ clampOrigin x size disp ∧ clampOrigin x size disp + size ≤ disp := by
  unfold clampOrigin
  dsimp only
  split_ifs <;> omega

/-- A size larger than the canvas: the second step sets the coordinate to `disp - size`, below
zero, whatever the first step did. -/
theorem clampOrigin_of_lt (hover : disp < size) : clampOrigin x size disp = disp - size := by
  have hlow : 0 ≤ (if x < 0 then 0 else x) := by
    split_ifs <;> omega
  unfold clampOrigin
  dsimp only
  rw [if_pos (by omega)]

end Clamp

/-- The origin `cleanup_render_resources` stores, for every position, margin, size and
canvas: a bitmap that fits the canvas lies inside it, and one that is wider or taller than the
canvas starts at `disp - size` in that direction, left of or above the canvas. Both coordinates
are the clamp of an origin, and the clamp lemmas decide every case. -/
theorem cleanupRenderResources_origin (bm : BitmapGeometry) (w h dispW dispH : ℤ)
    (posConfig : Option (SubtitlePosition × MarginsPx)) :
    let placed := cleanupRenderResources true bm w h dispW dispH posConfig
    (w ≤ dispW → 0 ≤ placed.x ∧ placed.x + w ≤ dispW) ∧
      (h ≤ dispH → 0 ≤ placed.y ∧ placed.y + h ≤ dispH) ∧
      (dispW < w → placed.x = dispW - w) ∧ (dispH < h → placed.y = dispH - h) := by
  intro placed
  obtain ⟨origin, hx, hy⟩ : ∃ origin : ℤ × ℤ,
      placed.x = clampOrigin origin.1 w dispW ∧ placed.y = clampOrigin origin.2 h dispH :=
    ⟨_, rfl, rfl⟩
  rw [hx, hy]
  exact ⟨clampOrigin_of_le, clampOrigin_of_le, clampOrigin_of_lt, clampOrigin_of_lt⟩

/-- An 800 pixel wide bitmap at the bottom centre of a 720 × 576 canvas, 28 pixels above the
bottom: its column is `-80`. -/
theorem cleanupRenderResources_origin_wide :
    (cleanupRenderResources true ⟨0, 0, 0, 0⟩ 800 60 720 576
        (some (.botCenter, ⟨0, 0, 28, 0⟩))).x = -80 ∧
      (cleanupRenderResources true ⟨0, 0, 0, 0⟩ 800 60 720 576
        (some (.botCenter, ⟨0, 0, 28, 0⟩))).y = 488 := by
  have h := cleanupRenderResources_origin ⟨0, 0, 0, 0⟩ 800 60 720 576
    (some (.botCenter, ⟨0, 0, 28, 0⟩))
  refine ⟨h.2.2.1 (by decide), ?_⟩
  decide

end Srt2Dvbsub.Render
