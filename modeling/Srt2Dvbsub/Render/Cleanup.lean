import Srt2Dvbsub.Lib.List

/-!
# The post-dither cleanup of a rendered bitmap

After `render_text_pango` (`render_pango.c`) has quantised the rendered text to a palette of 16
colours, it cleans the index image up in three passes. It does so when the image is larger than
4 × 4 and a buffer `clean_idx` of its size can be allocated. Each pass visits the pixels inside
the one-pixel border in row-major order, and compares the luma of the palette entries of pixels
with fixed thresholds.

* Pass 1 copies `bm.idxbuf` to `clean_idx`. A pixel darker than 140, with at least three of its
  four neighbours at 180 or above, becomes its brightest neighbour in `clean_idx`. The pass
  reads `bm.idxbuf`; then `clean_idx` is copied back to it.
* Pass 2 is the same rule with the eight neighbours, a pixel darker than 150 and at least five
  neighbours at 185 or above. It reads `bm.idxbuf` and writes `clean_idx`.
* Pass 3 works in place on `bm.idxbuf`. From a pixel darker than 160 it looks for a run of 2 to
  6 pixels, along the row and then down the column, all darker than 175 and with both ends at
  180 or above. It fills the run with the palette colour nearest to a weighted mean of the
  pixels around it.
* Last, `clean_idx` is copied to `bm.idxbuf`.

The two neighbour passes are one rule with parameters (`neighbourRule`). Its loop reads one
buffer and writes the other, and so computes the pass as a function of the image it reads
(`neighbourSweep_eq_neighbourPass`). The write-back copies the result of pass 2 over the image
that pass 3 cleaned: whatever pass 3 does is lost, and the cleanup returns pass 2 of pass 1 of
the image (`postDitherCleanup_eq`). The image `runDemoImage` has a dark run that only pass 3
fills, and the cleanup returns it unfilled (`postDitherCleanup_eq_runDemo`).

Scope. The luma of a palette entry, computed in `double` from its channels, and
`nearest_palette_index_display` enter as arbitrary functions (`CleanupPalette`), compared with
the thresholds exactly. The image is a list of palette indices, read past its end as index 0.
The allocation of `clean_idx` enters as its outcome.
-/

set_option autoImplicit false
set_option relaxedAutoImplicit false

namespace Srt2Dvbsub.Render

/-- `RENDER_PANGO_SAFE_MAX_PIXELS`: the largest buffer `safe_malloc_count` allocates. -/
def RENDER_PANGO_SAFE_MAX_PIXELS : ℕ := 100000000

/-- What the cleanup reads of the palette: its 16 entries (`0xAARRGGBB`), the luma the code
computes from an entry, and `nearest_palette_index_display(palette, 16, r, g, b, a)`. -/
structure CleanupPalette where
  entry : Fin 16 → UInt32
  luma : UInt32 → ℚ
  nearest : ℕ → ℕ → ℕ → ℕ → Fin 16

/-- The luma of the entry a pixel names. -/
def CleanupPalette.lumaOf (pal : CleanupPalette) (v : Fin 16) : ℚ :=
  pal.luma (pal.entry v)

/-- A byte of a palette entry: `(p >> shift) & 0xff`. -/
def paletteByte (p : UInt32) (shift : ℕ) : ℕ :=
  p.toNat / 2 ^ shift % 256

/-- The pixels inside the one-pixel border as `(y, x)`, in the order of
`for (y = 1; y < h - 1; y++) for (x = 1; x < w - 1; x++)`. -/
def interiorPixels (w h : ℕ) : List (ℕ × ℕ) :=
  (List.range' 1 (h - 2)).flatMap fun y ↦ (List.range' 1 (w - 2)).map fun x ↦ (y, x)

/-! ### Passes 1 and 2 -/

/-- The four neighbours `{ i - w, i + w, i - 1, i + 1 }` of pass 1. -/
def neighbours4 (w i : ℕ) : List ℕ :=
  [i - w, i + w, i - 1, i + 1]

/-- The eight neighbours of pass 2, row by row. -/
def neighbours8 (w i : ℕ) : List ℕ :=
  [i - w - 1, i - w, i - w + 1, i - 1, i + 1, i + w - 1, i + w, i + w + 1]

/-- The brightest neighbour, the first of equal ones: `best_l` starts at `-1.0` and `best_idx`
at the pixel's own index, and a neighbour replaces them when `nl > best_l`. -/
def brightestNeighbour (pal : CleanupPalette) (img : List (Fin 16)) (own : Fin 16)
    (nbrs : List ℕ) : Fin 16 :=
  (nbrs.foldl (fun (best : ℚ × Fin 16) n ↦
    if pal.lumaOf (img.getD n 0) > best.1 then (pal.lumaOf (img.getD n 0), img.getD n 0)
    else best) (-1, own)).2

/-- The rule of a neighbour pass at pixel `i` of `img`. A pixel darker than `dark`, with at least
`minBright` neighbours of luma `bright` or above, takes its brightest neighbour; `none` when it
keeps its index. A neighbour at or past `wh` is skipped. -/
def neighbourRule (pal : CleanupPalette) (dark bright : ℚ) (minBright : ℕ) (nbrs : ℕ → List ℕ)
    (wh : ℕ) (img : List (Fin 16)) (i : ℕ) : Option (Fin 16) :=
  let own := img.getD i 0
  let valid := (nbrs i).filter (· < wh)
  if pal.lumaOf own < dark then
    if minBright ≤ valid.countP (fun n ↦ bright ≤ pal.lumaOf (img.getD n 0)) then
      some (brightestNeighbour pal img own valid)
    else none
  else none

/-- The rule of pass 1: four neighbours, darker than 140, three at 180 or above. -/
def pass1Rule (pal : CleanupPalette) (w h : ℕ) : List (Fin 16) → ℕ → Option (Fin 16) :=
  neighbourRule pal 140 180 3 (neighbours4 w) (w * h)

/-- The rule of pass 2: eight neighbours, darker than 150, five at 185 or above. -/
def pass2Rule (pal : CleanupPalette) (w h : ℕ) : List (Fin 16) → ℕ → Option (Fin 16) :=
  neighbourRule pal 150 185 5 (neighbours8 w) (w * h)

/-- The loop of a neighbour pass: it reads `src` and writes `dst`. -/
def neighbourSweep (rule : List (Fin 16) → ℕ → Option (Fin 16)) (w h : ℕ)
    (src dst : List (Fin 16)) : List (Fin 16) :=
  (interiorPixels w h).foldl
    (fun dst p ↦ (rule src (p.1 * w + p.2)).elim dst (dst.set (p.1 * w + p.2))) dst

/-- Pixel `i` of a `w`-wide, `h`-high image lies inside its one-pixel border. -/
def IsInterior (w h i : ℕ) : Prop :=
  1 ≤ i / w ∧ i / w + 2 ≤ h ∧ 1 ≤ i % w ∧ i % w + 2 ≤ w

instance (w h i : ℕ) : Decidable (IsInterior w h i) :=
  inferInstanceAs (Decidable (_ ∧ _ ∧ _ ∧ _))

/-- A neighbour pass as a function of the image it reads: each interior pixel where the rule
fires takes the rule's value, and every other pixel keeps its own. -/
def neighbourPass (rule : List (Fin 16) → ℕ → Option (Fin 16)) (w h : ℕ)
    (img : List (Fin 16)) : List (Fin 16) :=
  img.mapIdx fun i v ↦ if IsInterior w h i then (rule img i).getD v else v

/-! ### Pass 3 -/

/-- One direction of pass 3 at a pixel: the position along it (`x` or `y`), its bound (`w` or
`h`), the step to the next pixel of a run (`1` or `w`), and the step across (`w` or `1`). -/
structure RunAxis where
  pos : ℕ
  bound : ℕ
  step : ℕ
  across : ℕ

/-- The candidates of the fill colour of a run of `run` pixels from `i`, with their weights: the
pixels before and after the run (weight 4), the pixels across its first and its last pixel, and
the pixels two before and two after, or the ends themselves at the border. -/
def runCandidates (ax : RunAxis) (i run : ℕ) : List (ℕ × ℕ) :=
  [(i - ax.step, 4), (i + run * ax.step, 4), (i - ax.across, 1), (i + ax.across, 1),
    (i + (run - 1) * ax.step - ax.across, 1), (i + (run - 1) * ax.step + ax.across, 1),
    (if 2 ≤ ax.pos then i - 2 * ax.step else i - ax.step, 1),
    (if ax.pos + run + 1 < ax.bound then i + (run + 1) * ax.step else i + run * ax.step, 1)]

/-- The fill colour of pass 3: the weighted means of the candidates' channels, matched by
`nearest_palette_index_display` under the alpha of `alphaAt`; `none` when no candidate lies in
the image. -/
def runFill (pal : CleanupPalette) (wh : ℕ) (img : List (Fin 16)) (cands : List (ℕ × ℕ))
    (alphaAt : ℕ) : Option (Fin 16) :=
  let inside := cands.filter (·.1 < wh)
  let sumW := (inside.map Prod.snd).sum
  let mean (shift : ℕ) : ℕ :=
    (inside.map fun c ↦ paletteByte (pal.entry (img.getD c.1 0)) shift * c.2).sum / sumW % 256
  if 0 < sumW then
    some (pal.nearest (mean 16) (mean 8) (mean 0) (paletteByte (pal.entry (img.getD alphaAt 0)) 24))
  else none

/-- One run length of pass 3 from `i` along `ax`: `run` pixels darker than 175 and both ends at
180 or above give the fill colour. -/
def runAt (pal : CleanupPalette) (wh : ℕ) (ax : RunAxis) (img : List (Fin 16)) (i run : ℕ) :
    Option (Fin 16) :=
  if (List.range run).all fun k ↦ pal.lumaOf (img.getD (i + k * ax.step) 0) < 175 then
    if 180 ≤ pal.lumaOf (img.getD (i - ax.step) 0) ∧
        180 ≤ pal.lumaOf (img.getD (i + run * ax.step) 0) then
      runFill pal wh img (runCandidates ax i run) (i - ax.step)
    else none
  else none

/-- The loop over the run lengths along one direction, in place; it stops at the first length
that reaches the border (`break`). -/
def runLoop (pal : CleanupPalette) (wh : ℕ) (ax : RunAxis) (i : ℕ) :
    List ℕ → List (Fin 16) → List (Fin 16)
  | [], img => img
  | run :: runs, img =>
    if ax.bound - 1 ≤ ax.pos + run - 1 then img
    else
      match runAt pal wh ax img i run with
      | some v =>
        runLoop pal wh ax i runs ((List.range run).foldl (fun img k ↦ img.set (i + k * ax.step) v) img)
      | none => runLoop pal wh ax i runs img

/-- Pass 3 at the pixel `(y, x)` of a pixel darker than 160: the runs `2 .. 6` along the row,
then down the column. -/
def runCleanupAt (pal : CleanupPalette) (w h : ℕ) (img : List (Fin 16)) (p : ℕ × ℕ) :
    List (Fin 16) :=
  if pal.lumaOf (img.getD (p.1 * w + p.2) 0) < 160 then
    let img := runLoop pal (w * h) ⟨p.2, w, 1, w⟩ (p.1 * w + p.2) (List.range' 2 5) img
    runLoop pal (w * h) ⟨p.1, h, w, 1⟩ (p.1 * w + p.2) (List.range' 2 5) img
  else img

/-- Pass 3: the in-place sweep. -/
def runSweep (pal : CleanupPalette) (w h : ℕ) (img : List (Fin 16)) : List (Fin 16) :=
  (interiorPixels w h).foldl (runCleanupAt pal w h) img

/-! ### The cleanup -/

/-- The cleanup of `render_text_pango`, with the outcome of the allocation of `clean_idx`. -/
def postDitherCleanup (pal : CleanupPalette) (w h : ℕ) (allocOk : Bool)
    (idxbuf : List (Fin 16)) : List (Fin 16) :=
  if 4 < w ∧ 4 < h then
    if w * h ≤ RENDER_PANGO_SAFE_MAX_PIXELS ∧ allocOk then
      -- pass 1 writes the copy, which is committed to `bm.idxbuf`
      let cleanIdx := neighbourSweep (pass1Rule pal w h) w h idxbuf idxbuf
      let idxbuf := cleanIdx
      -- pass 2 reads `bm.idxbuf` and writes `clean_idx`
      let cleanIdx := neighbourSweep (pass2Rule pal w h) w h idxbuf cleanIdx
      -- pass 3 cleans `bm.idxbuf` in place
      let _idxbuf := runSweep pal w h idxbuf
      -- the write-back of `clean_idx`
      cleanIdx
    else idxbuf
  else idxbuf

/-! ### The loops of passes 1 and 2 -/

section Sweep

variable {w h : ℕ}

/-- Division and remainder by the width recover the coordinates of a pixel. -/
theorem index_div_mod {y x : ℕ} (hx : x < w) : (y * w + x) / w = y ∧ (y * w + x) % w = x := by
  have hw : 0 < w := by omega
  constructor
  · rw [Nat.add_comm, Nat.add_mul_div_right _ _ hw, Nat.div_eq_of_lt hx, Nat.zero_add]
  · rw [Nat.add_comm, Nat.add_mul_mod_self_right, Nat.mod_eq_of_lt hx]

theorem mem_interiorPixels {y x : ℕ} :
    (y, x) ∈ interiorPixels w h ↔ 1 ≤ y ∧ y + 2 ≤ h ∧ 1 ≤ x ∧ x + 2 ≤ w := by
  simp only [interiorPixels, List.mem_flatMap, List.mem_map, List.mem_range'_1, Prod.mk.injEq]
  constructor
  · rintro ⟨y', ⟨hy₁, hy₂⟩, x', ⟨hx₁, hx₂⟩, rfl, rfl⟩
    omega
  · rintro ⟨hy₁, hy₂, hx₁, hx₂⟩
    exact ⟨y, ⟨hy₁, by omega⟩, x, ⟨hx₁, by omega⟩, rfl, rfl⟩

/-- The indices the loops visit are the interior pixels. -/
theorem mem_interiorIndices {i : ℕ} :
    i ∈ (interiorPixels w h).map (fun p ↦ p.1 * w + p.2) ↔ IsInterior w h i := by
  simp only [List.mem_map, Prod.exists, mem_interiorPixels, IsInterior]
  constructor
  · rintro ⟨y, x, ⟨hy₁, hy₂, hx₁, hx₂⟩, rfl⟩
    obtain ⟨hdiv, hmod⟩ := index_div_mod (y := y) (show x < w by omega)
    rw [hdiv, hmod]
    omega
  · rintro ⟨hy₁, hy₂, hx₁, hx₂⟩
    exact ⟨i / w, i % w, ⟨hy₁, hy₂, hx₁, hx₂⟩, Nat.div_add_mod' i w⟩

/-- The loops visit each interior pixel once. -/
theorem nodup_interiorIndices : ((interiorPixels w h).map (fun p ↦ p.1 * w + p.2)).Nodup := by
  refine List.Nodup.map_on ?_ ?_
  · rintro ⟨y, x⟩ hp ⟨y', x'⟩ hp' heq
    rw [mem_interiorPixels] at hp hp'
    obtain ⟨hdiv, hmod⟩ := index_div_mod (y := y) (show x < w by omega)
    obtain ⟨hdiv', hmod'⟩ := index_div_mod (y := y') (show x' < w by omega)
    dsimp only at heq
    rw [heq] at hdiv hmod
    rw [← hdiv, ← hmod, hdiv', hmod']
  · rw [interiorPixels, List.nodup_flatMap]
    refine ⟨fun y _ ↦ (List.nodup_range' 1).map fun x x' h ↦ (Prod.mk.inj h).2, ?_⟩
    refine (List.pairwise_lt_range' (s := 1) (n := h - 2)).imp fun {y y'} hlt ↦ ?_
    intro p hp hp'
    obtain ⟨x, -, rfl⟩ := List.mem_map.mp hp
    obtain ⟨x', -, heq⟩ := List.mem_map.mp hp'
    exact absurd (Prod.mk.inj heq).1 (Nat.ne_of_gt hlt)

/-- The loop of a neighbour pass that reads the image it writes a copy of computes the pass of
that image: it reads only the image, and writes each interior pixel once. -/
theorem neighbourSweep_eq_neighbourPass
    (rule : List (Fin 16) → ℕ → Option (Fin 16)) (img : List (Fin 16)) :
    neighbourSweep rule w h img img = neighbourPass rule w h img := by
  have hfold : neighbourSweep rule w h img img =
      ((interiorPixels w h).map fun p ↦ p.1 * w + p.2).foldl
        (fun dst i ↦ (rule img i).elim dst (dst.set i)) img := by
    rw [List.foldl_map]
    rfl
  rw [hfold, Lib.foldl_setSome_eq_mapIdx (rule img) _ img nodup_interiorIndices, neighbourPass]
  simp only [mem_interiorIndices]

end Sweep

/-! ### The cleanup drops pass 3 -/

/-- The cleanup of an image larger than 4 × 4 returns pass 2 of pass 1 of the image, when
`clean_idx` is allocated, and the image itself otherwise. What pass 3 does to `bm.idxbuf` is
overwritten by the write-back. -/
theorem postDitherCleanup_eq (pal : CleanupPalette) {w h : ℕ} (hw : 4 < w) (hh : 4 < h)
    (allocOk : Bool) (idxbuf : List (Fin 16)) :
    postDitherCleanup pal w h allocOk idxbuf =
      if w * h ≤ RENDER_PANGO_SAFE_MAX_PIXELS ∧ allocOk then
        neighbourPass (pass2Rule pal w h) w h (neighbourPass (pass1Rule pal w h) w h idxbuf)
      else idxbuf := by
  unfold postDitherCleanup
  rw [if_pos ⟨hw, hh⟩]
  split_ifs
  · dsimp only
    rw [neighbourSweep_eq_neighbourPass, neighbourSweep_eq_neighbourPass]
  · rfl

/-- A palette of white (index 1, luma 255) and grey `0x9B9B9B` (every other index, luma 155), with
the lumas the code computes for them; the colours of the runs here are matched to white. -/
def runDemoPalette : CleanupPalette where
  entry v := if v = 1 then 0xFFFFFFFF else 0xFF9B9B9B
  luma p := if p = 0xFFFFFFFF then 255 else 155
  nearest _ _ _ _ := 1

/-- A 5 × 5 image of index 1 whose middle row is `1 0 0 1 1`. -/
def runDemoImage : List (Fin 16) :=
  [1, 1, 1, 1, 1,
   1, 1, 1, 1, 1,
   1, 0, 0, 1, 1,
   1, 1, 1, 1, 1,
   1, 1, 1, 1, 1]

/-- On `runDemoImage` the two dark pixels (luma 155) are too bright for passes 1 and 2, which
leave the image as it is; pass 3 fills them as a run of two between bright ends. The cleanup
returns the image unfilled. -/
theorem postDitherCleanup_eq_runDemo :
    (4 < 5 ∧ 4 < 5) ∧
    postDitherCleanup runDemoPalette 5 5 true runDemoImage =
      (if 5 * 5 ≤ RENDER_PANGO_SAFE_MAX_PIXELS ∧ true = true then
        neighbourPass (pass2Rule runDemoPalette 5 5) 5 5
          (neighbourPass (pass1Rule runDemoPalette 5 5) 5 5 runDemoImage)
      else runDemoImage) ∧
    neighbourPass (pass2Rule runDemoPalette 5 5) 5 5
        (neighbourPass (pass1Rule runDemoPalette 5 5) 5 5 runDemoImage) = runDemoImage ∧
    runSweep runDemoPalette 5 5 runDemoImage = List.replicate 25 1 :=
  ⟨by decide, postDitherCleanup_eq runDemoPalette (by decide) (by decide) true runDemoImage,
    by decide +kernel, by decide +kernel⟩

end Srt2Dvbsub.Render
