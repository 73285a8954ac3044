import Srt2Dvbsub.Render.AssFrame

/-!
# What `render_ass_frame` draws

The tile loop of `render_ass_frame` walks the tiles one after another and, inside each tile,
its pixels; a pixel overwrites the index buffer only where its coverage is greater than the
coverage written there before. Read position by position, this is the scan `Lib.improveMax`
over the tiles: the frame holds at every position of its box the index of the first tile of
greatest coverage there, mapped through the palette, and 0 where no tile covers the position
(`compositeIndex`).

The argument goes through one tile at a time. A pixel of a tile names at most one index of the
box (`pixelTarget`), distinct pixels name distinct indices (`pixelTarget_injective`), and every
index that the tile covers is named by one of its pixels (`exists_pixel_of_boxCoverage_pos`),
so the pixel loop of a tile is a pointwise map of the buffers (`foldl_blendPixel`, through
`Lib.foldl_modify_targets_eq_mapIdx`). The colour cache hands every tile the index
`nearest_palette_index` gives its colour (`colorCacheLookup_spec`), so the tile loop composes
these maps (`foldl_compositeTile`), and the scan lemma `Lib.foldl_improveMax` turns the
composition into the first tile of greatest coverage (`compositeIndex_eq_foldl`).

`renderAssFrame_composite` is the result for one call: a frame with an index buffer holds the
composite of its tiles at every position, over the palette it carries, and only indices of
that palette. `renderAssFrame_covers` shows that the box loses no covered position.
`assFrameRun` follows the static palette cache over every run of calls from its zeroed start:
the palette a frame carries is always `init_palette` of the call's mode.

Scope: the calls run one after another, as the program makes them; the two critical sections
of the palette cache are taken as one step.
-/

set_option autoImplicit false
set_option relaxedAutoImplicit false

namespace Srt2Dvbsub.Render

/-! ### The composite -/

/-- The coverage a tile gives the frame position `(x, y)`: its coverage byte there when the
tile passes `render_ass_validate_image_tile` and covers the position, and 0 otherwise. -/
def tileCoverageAt (t : AssImage) (x y : ℤ) : ℕ :=
  if renderAssValidateImageTile t.w t.h t.stride t.bitmap = true ∧ t.dstX ≤ x ∧
      x < t.dstX + t.w ∧ t.dstY ≤ y ∧ y < t.dstY + t.h then
    tileCoverageByte t (x - t.dstX).toNat (y - t.dstY).toNat
  else 0

/-- The index the frame should hold at `(x, y)`: that of the palette entry nearest to the
colour of the first tile of greatest coverage there, and the transparent index 0 where no tile
covers the position. -/
def compositeIndex (palette : List UInt32) (images : List AssImage) (x y : ℤ) : ℕ :=
  (images.argmax (tileCoverageAt · x y)).elim 0 fun t ↦
    if 0 < tileCoverageAt t x y then nearestPaletteIndex palette 16 (tileRgba t.color) else 0

/-- The composite is the scan in which a tile replaces the one kept only with strictly greater
coverage, from coverage 0 and index 0. -/
theorem compositeIndex_eq_foldl (palette : List UInt32) (images : List AssImage) (x y : ℤ) :
    compositeIndex palette images x y =
      (images.foldl (Lib.improveMax (tileCoverageAt · x y)
        fun t ↦ nearestPaletteIndex palette 16 (tileRgba t.color)) (0, 0)).2 := by
  rw [Lib.foldl_improveMax, compositeIndex]
  cases images.argmax (tileCoverageAt · x y) with
  | none => rfl
  | some m =>
    simp only [Option.elim_some]
    split_ifs <;> rfl

/-- The composite names an entry of the 16-entry palette. -/
theorem compositeIndex_lt (palette : List UInt32) (images : List AssImage) (x y : ℤ) :
    compositeIndex palette images x y < 16 := by
  unfold compositeIndex
  cases images.argmax (tileCoverageAt · x y) with
  | none => exact Nat.zero_lt_succ _
  | some m =>
    simp only [Option.elim_some]
    split_ifs
    · exact nearestPaletteIndex_lt palette (by norm_num) _
    · exact Nat.zero_lt_succ _

/-- Inside the rectangle of a tile that passes the check, the coverage at a position is the
byte of the pixel there. -/
theorem tileCoverageAt_pixel {t : AssImage}
    (hvalid : renderAssValidateImageTile t.w t.h t.stride t.bitmap = true) {xx yy : ℕ}
    (hxx : xx < t.w.toNat) (hyy : yy < t.h.toNat) :
    tileCoverageAt t (t.dstX + xx) (t.dstY + yy) = tileCoverageByte t xx yy := by
  rw [tileCoverageAt, if_pos ⟨hvalid, by omega, by omega, by omega, by omega⟩]
  simp only [add_sub_cancel_left, Int.toNat_natCast]

/-! ### Positions of the box and indices of its buffer -/

/-- The index `dy * w + dx` of a position of a box of width `w` gives the position back. -/
theorem boxIndex_mod_div {w dx dy : ℤ} (hdx : 0 ≤ dx) (hdxw : dx < w) (hdy : 0 ≤ dy) :
    (((dy * w + dx).toNat % w.toNat : ℕ) : ℤ) = dx ∧
      (((dy * w + dx).toNat / w.toNat : ℕ) : ℤ) = dy := by
  obtain ⟨a, rfl⟩ := Int.eq_ofNat_of_zero_le hdx
  obtain ⟨b, rfl⟩ := Int.eq_ofNat_of_zero_le hdy
  obtain ⟨c, rfl⟩ := Int.eq_ofNat_of_zero_le (hdx.trans hdxw.le)
  have hac : a < c := by exact_mod_cast hdxw
  have hidx : ((b : ℤ) * c + a).toNat = b * c + a := by
    rw [← Nat.cast_mul, ← Nat.cast_add, Int.toNat_natCast]
  obtain ⟨hdiv, hmod⟩ := index_div_mod (y := b) hac
  rw [hidx, Int.toNat_natCast, hmod, hdiv]
  exact ⟨rfl, rfl⟩

/-- Every index of the buffer of a `w` by `h` box is the index of a position of the box. -/
theorem boxIndex_of_lt {w h : ℤ} {q : ℕ} (hw : 0 < w) (hq : q < (w * h).toNat) :
    ((q / w.toNat : ℕ) : ℤ) < h ∧
      (((q / w.toNat : ℕ) : ℤ) * w + ((q % w.toNat : ℕ) : ℤ)).toNat = q := by
  obtain ⟨c, rfl⟩ := Int.eq_ofNat_of_zero_le hw.le
  have hh : 0 < h := by
    by_contra hle
    have : (c : ℤ) * h ≤ 0 := mul_nonpos_of_nonneg_of_nonpos (Int.natCast_nonneg c) (not_lt.mp hle)
    omega
  obtain ⟨d, rfl⟩ := Int.eq_ofNat_of_zero_le hh.le
  rw [← Nat.cast_mul, Int.toNat_natCast] at hq
  rw [Int.toNat_natCast]
  refine ⟨by exact_mod_cast Nat.div_lt_of_lt_mul hq, ?_⟩
  rw [← Nat.cast_mul, ← Nat.cast_add, Int.toNat_natCast, Nat.mul_comm]
  exact Nat.div_add_mod q c

/-! ### One tile -/

section Tile

variable {t : AssImage} {box : AssBox} {w h : ℤ}

/-- The coverage a tile gives index `q` of the buffer of a box of width `w`. -/
def boxCoverage (t : AssImage) (box : AssBox) (w : ℤ) (q : ℕ) : ℕ :=
  tileCoverageAt t (box.minx + (q % w.toNat : ℕ)) (box.miny + (q / w.toNat : ℕ))

/-- The index of the box buffer that pixel `(yy, xx)` of a tile writes: there is one when the
pixel has coverage and lies inside the box. -/
def pixelTarget (t : AssImage) (box : AssBox) (w h : ℤ) (p : ℕ × ℕ) : Option ℕ :=
  if 0 < tileCoverageByte t p.2 p.1 ∧ 0 ≤ t.dstX + p.2 - box.minx ∧ t.dstX + p.2 - box.minx < w ∧
      0 ≤ t.dstY + p.1 - box.miny ∧ t.dstY + p.1 - box.miny < h then
    some ((t.dstY + p.1 - box.miny) * w + (t.dstX + p.2 - box.minx)).toNat
  else none

theorem blendEntry_zero (palidx : ℕ) (e : ℕ × ℕ) : blendEntry 0 palidx e = e :=
  if_neg (Nat.not_lt_zero _)

/-- The guarded write of the pixel loop is a modification by `blendEntry`. -/
theorem ite_set_eq_modify (l : List (ℕ × ℕ)) (q cov palidx : ℕ) :
    (if q < l.length ∧ (l.getD q (0, 0)).1 < cov then l.set q (cov, palidx) else l) =
      l.modify q (blendEntry cov palidx) := by
  by_cases hwrite : q < l.length ∧ (l.getD q (0, 0)).1 < cov
  · rw [if_pos hwrite, List.set_eq_modify]
    apply List.ext_getElem (by simp) fun j _ _ ↦ ?_
    simp only [List.getElem_modify]
    split_ifs with hqj
    · subst hqj
      rw [blendEntry, if_pos (by simpa [List.getElem?_eq_getElem hwrite.1] using hwrite.2)]
    · rfl
  · rw [if_neg hwrite]
    apply List.ext_getElem (by simp) fun j h₁ _ ↦ ?_
    simp only [List.getElem_modify]
    split_ifs with hqj
    · subst hqj
      rw [blendEntry, if_neg fun hcov ↦ hwrite ⟨h₁, by simpa [List.getElem?_eq_getElem h₁] using hcov⟩]
    · rfl

/-- A pixel changes at most the entry it names, by `blendEntry` with its coverage. -/
theorem blendPixel_eq (palidx : ℕ) (buf : List (ℕ × ℕ)) (p : ℕ × ℕ) :
    blendPixel t box w h palidx buf p =
      (pixelTarget t box w h p).elim buf
        fun q ↦ buf.modify q (blendEntry (tileCoverageByte t p.2 p.1) palidx) := by
  unfold blendPixel pixelTarget
  by_cases hcov : 0 < tileCoverageByte t p.2 p.1
  · by_cases hin : 0 ≤ t.dstX + p.2 - box.minx ∧ t.dstX + p.2 - box.minx < w ∧
        0 ≤ t.dstY + p.1 - box.miny ∧ t.dstY + p.1 - box.miny < h
    · rw [if_pos hcov, if_pos hin, ite_set_eq_modify, if_pos (And.intro hcov hin),
        Option.elim_some]
    · rw [if_pos hcov, if_neg hin, if_neg fun h ↦ hin h.2, Option.elim_none]
  · rw [if_neg hcov, if_neg fun h ↦ hcov h.1, Option.elim_none]

/-- What a named index says of the pixel: its column and row in the box. -/
theorem pixelTarget_eq_some {p : ℕ × ℕ} {q : ℕ}
    (htarget : pixelTarget t box w h p = some q) :
    0 < tileCoverageByte t p.2 p.1 ∧ ((q % w.toNat : ℕ) : ℤ) = t.dstX + p.2 - box.minx ∧
      ((q / w.toNat : ℕ) : ℤ) = t.dstY + p.1 - box.miny := by
  unfold pixelTarget at htarget
  split_ifs at htarget with hin
  obtain ⟨hcov, hdx, hdxw, hdy, -⟩ := hin
  obtain rfl := Option.some.inj htarget
  exact ⟨hcov, boxIndex_mod_div hdx hdxw hdy⟩

/-- Distinct pixels of a tile name distinct indices. -/
theorem pixelTarget_injective {p p' : ℕ × ℕ} {q : ℕ}
    (hp : pixelTarget t box w h p = some q) (hp' : pixelTarget t box w h p' = some q) : p = p' := by
  obtain ⟨-, hx, hy⟩ := pixelTarget_eq_some hp
  obtain ⟨-, hx', hy'⟩ := pixelTarget_eq_some hp'
  exact Prod.ext (by omega) (by omega)

/-- The index a pixel names gets from the tile the coverage of that pixel. -/
theorem boxCoverage_of_pixelTarget
    (hvalid : renderAssValidateImageTile t.w t.h t.stride t.bitmap = true)
    {p : ℕ × ℕ} (hp : p ∈ tilePixels t) {q : ℕ} (htarget : pixelTarget t box w h p = some q) :
    boxCoverage t box w q = tileCoverageByte t p.2 p.1 := by
  obtain ⟨-, hx, hy⟩ := pixelTarget_eq_some htarget
  obtain ⟨hyy, hxx⟩ := List.mem_product.mp hp
  have hxpos : box.minx + ((q % w.toNat : ℕ) : ℤ) = t.dstX + p.2 := by omega
  have hypos : box.miny + ((q / w.toNat : ℕ) : ℤ) = t.dstY + p.1 := by omega
  rw [boxCoverage, hxpos, hypos,
    tileCoverageAt_pixel hvalid (List.mem_range.mp hxx) (List.mem_range.mp hyy)]

/-- Every index of the box that the tile covers is named by one of its pixels. -/
theorem exists_pixel_of_boxCoverage_pos (hw : 0 < w) {q : ℕ} (hq : q < (w * h).toNat)
    (hpos : 0 < boxCoverage t box w q) :
    ∃ p ∈ tilePixels t, pixelTarget t box w h p = some q := by
  obtain ⟨hrow, hidx⟩ := boxIndex_of_lt hw hq
  have hcol : ((q % w.toNat : ℕ) : ℤ) < w := by
    have := Nat.mod_lt q (show 0 < w.toNat by omega)
    omega
  unfold boxCoverage tileCoverageAt at hpos
  split_ifs at hpos with hin
  · obtain ⟨-, hx₁, hx₂, hy₁, hy₂⟩ := hin
    refine ⟨((box.miny + ((q / w.toNat : ℕ) : ℤ) - t.dstY).toNat,
      (box.minx + ((q % w.toNat : ℕ) : ℤ) - t.dstX).toNat), ?_, ?_⟩
    · exact List.mem_product.mpr ⟨List.mem_range.mpr (by omega), List.mem_range.mpr (by omega)⟩
    · have hdx : t.dstX + ((box.minx + ((q % w.toNat : ℕ) : ℤ) - t.dstX).toNat : ℤ) - box.minx =
          ((q % w.toNat : ℕ) : ℤ) := by omega
      have hdy : t.dstY + ((box.miny + ((q / w.toNat : ℕ) : ℤ) - t.dstY).toNat : ℤ) - box.miny =
          ((q / w.toNat : ℕ) : ℤ) := by omega
      have hin : 0 ≤ ((q % w.toNat : ℕ) : ℤ) ∧ ((q % w.toNat : ℕ) : ℤ) < w ∧
          0 ≤ ((q / w.toNat : ℕ) : ℤ) ∧ ((q / w.toNat : ℕ) : ℤ) < h :=
        ⟨Int.natCast_nonneg _, hcol, Int.natCast_nonneg _, hrow⟩
      simp only [pixelTarget]
      rw [hdx, hdy, if_pos (And.intro hpos hin), hidx]
  · exact absurd hpos (Nat.lt_irrefl 0)

/-- The pixel loop of a tile that passes the check is the pointwise map of the buffer by the
tile's coverage at each index. -/
theorem foldl_blendPixel (hvalid : renderAssValidateImageTile t.w t.h t.stride t.bitmap = true)
    (hw : 0 < w) (palidx : ℕ) {buf : List (ℕ × ℕ)} (hlen : buf.length = (w * h).toNat) :
    (tilePixels t).foldl (blendPixel t box w h palidx) buf =
      buf.mapIdx fun q v ↦ blendEntry (boxCoverage t box w q) palidx v := by
  have hbody : ∀ acc, ∀ p ∈ tilePixels t, blendPixel t box w h palidx acc p =
      (pixelTarget t box w h p).elim acc
        fun q ↦ acc.modify q (blendEntry (boxCoverage t box w q) palidx) := by
    intro acc p hp
    rw [blendPixel_eq]
    cases htarget : pixelTarget t box w h p with
    | none => rfl
    | some q => rw [Option.elim_some, Option.elim_some, boxCoverage_of_pixelTarget hvalid hp htarget]
  have hnodup : ((tilePixels t).filterMap (pixelTarget t box w h)).Nodup :=
    List.Nodup.filterMap (fun _ _ _ hp hp' ↦ pixelTarget_injective hp hp')
      (List.nodup_range.product List.nodup_range)
  rw [List.foldl_ext _ _ _ hbody, Lib.foldl_modify_targets_eq_mapIdx _ _ _ _ hnodup]
  apply List.ext_getElem (by simp)
  intro q h₁ _
  simp only [List.getElem_mapIdx]
  split_ifs with hmem
  · rfl
  · have hzero : boxCoverage t box w q = 0 := by
      by_contra hne
      have hq : q < (w * h).toNat := by simpa [hlen] using h₁
      exact hmem (List.mem_filterMap.mpr
        (exists_pixel_of_boxCoverage_pos hw hq (Nat.pos_of_ne_zero hne)))
    rw [hzero, blendEntry_zero]

end Tile

/-! ### The tile loop -/

section TileLoop

variable (palette : List UInt32) (box : AssBox) {w h : ℤ}

/-- One turn of the tile loop maps the buffer by the scan step of the tile, with the index the
colour cache hands out. -/
theorem compositeTile_snd (hw : 0 < w) (cache : ColorCache) {buf : List (ℕ × ℕ)}
    (hlen : buf.length = (w * h).toNat) (t : AssImage) :
    (compositeTile palette box w h (cache, buf) t).2 =
      buf.mapIdx fun q v ↦
        blendEntry (boxCoverage t box w q) (colorCacheLookup palette cache (tileRgba t.color)).1 v := by
  unfold compositeTile
  split_ifs with hvalid
  · exact foldl_blendPixel hvalid hw _ hlen
  · have hzero : ∀ q, boxCoverage t box w q = 0 := fun q ↦ by
      rw [boxCoverage, tileCoverageAt, if_neg fun h ↦ hvalid h.1]
    apply List.ext_getElem (by simp)
    intro q _ _
    simp only [List.getElem_mapIdx, hzero, blendEntry_zero]

theorem compositeTile_fst (cache : ColorCache) (buf : List (ℕ × ℕ)) (t : AssImage) :
    (compositeTile palette box w h (cache, buf) t).1 =
      (colorCacheLookup palette cache (tileRgba t.color)).2 := by
  unfold compositeTile
  split_ifs <;> rfl

/-- The tile loop maps every entry of the buffer by the scan over the tiles of the coverage
they give that entry, with the index of the palette entry nearest to their colour. -/
theorem foldl_compositeTile (hw : 0 < w) :
    ∀ (images : List AssImage) (cache : ColorCache) (buf : List (ℕ × ℕ)),
      ColorCacheInv palette cache → buf.length = (w * h).toNat →
      (images.foldl (compositeTile palette box w h) (cache, buf)).2 =
        buf.mapIdx fun q v ↦ images.foldl (Lib.improveMax (boxCoverage · box w q)
          fun t ↦ nearestPaletteIndex palette 16 (tileRgba t.color)) v
  | [], _, buf, _, _ => List.ext_getElem (by simp) (by simp)
  | t :: ts, cache, buf, hinv, hlen => by
    obtain ⟨hidx, hinv'⟩ := colorCacheLookup_spec hinv (tileRgba t.color)
    have hstep : compositeTile palette box w h (cache, buf) t =
        ((colorCacheLookup palette cache (tileRgba t.color)).2, buf.mapIdx fun q v ↦
          Lib.improveMax (boxCoverage · box w q)
            (fun t ↦ nearestPaletteIndex palette 16 (tileRgba t.color)) v t) := by
      refine Prod.ext (compositeTile_fst palette box cache buf t) ?_
      rw [compositeTile_snd palette box hw cache hlen t, hidx]
      rfl
    rw [List.foldl_cons, hstep,
      foldl_compositeTile hw ts _ _ hinv' (by rw [List.length_mapIdx, hlen]), List.mapIdx_mapIdx]
    rfl

end TileLoop

/-! ### The call -/

/-- Two overlapping one-row tiles: a white one, and a red one one pixel to the right that has
the greater coverage on the pixel they share. -/
def whiteRedTiles : List AssImage :=
  [⟨2, 1, 2, some [255, 10], 0, 0, 0xFFFFFFFF⟩, ⟨2, 1, 2, some [100, 200], 1, 0, 0xFFFF0000⟩]

/-- Every allocation of `render_ass_frame` succeeds. -/
def assAllocsOk : AssFrameAllocs := ⟨true, true, true, true⟩

section Call

variable {images : List AssImage} {mode : Option (List Char)} {allocs : AssFrameAllocs}
  {cache cache' : List PaletteCacheEntry} {bm : AssBitmap}

/-- Once the union box is not empty, the frame has the box's position and size, whatever the
allocations gave. -/
theorem renderAssFrame_geometry (hframe : renderAssFrame images mode allocs cache = (bm, cache'))
    (hx : (assBoundingBox images).minx < (assBoundingBox images).maxx)
    (hy : (assBoundingBox images).miny < (assBoundingBox images).maxy) :
    bm.x = (assBoundingBox images).minx ∧ bm.y = (assBoundingBox images).miny ∧
      bm.w = (assBoundingBox images).maxx - (assBoundingBox images).minx ∧
      bm.h = (assBoundingBox images).maxy - (assBoundingBox images).miny := by
  dsimp only [renderAssFrame] at hframe
  rw [if_neg (by omega), if_neg (by omega)] at hframe
  split_ifs at hframe <;> obtain ⟨rfl, -⟩ := Prod.mk.inj hframe <;> exact ⟨rfl, rfl, rfl, rfl⟩

/-- A frame with an index buffer went through every allocation: its buffer is the tile loop's
over the union box, with the palette of the palette block. -/
theorem renderAssFrame_of_idxbuf_eq_some
    (hframe : renderAssFrame images mode allocs cache = (bm, cache')) {idx : List ℕ}
    (hidx : bm.idxbuf = some idx) :
    0 < bm.w ∧ 0 < bm.h ∧ bm.x = (assBoundingBox images).minx ∧
      bm.y = (assBoundingBox images).miny ∧
      bm.palette = some (framePalette mode allocs.modeCopy cache).1 ∧
      idx = ((images.foldl (compositeTile (framePalette mode allocs.modeCopy cache).1
        (assBoundingBox images) bm.w bm.h)
          (.empty, List.replicate (bm.w * bm.h).toNat (0, 0))).2.map Prod.snd) := by
  dsimp only [renderAssFrame] at hframe
  split_ifs at hframe with hempty hsize hidxbuf hcovbuf hpalette <;>
    obtain ⟨rfl, -⟩ := Prod.mk.inj hframe
  iterate 5 exact absurd hidx (by simp)
  exact ⟨Int.sub_pos.mpr (by omega), Int.sub_pos.mpr (by omega), rfl, rfl, rfl,
    (Option.some.inj hidx).symm⟩

/-- The palette a frame carries, and the static cache after the call, come from the palette
block, unless the call returned before it. -/
theorem renderAssFrame_palette_cache (images : List AssImage) (mode : Option (List Char))
    (allocs : AssFrameAllocs) (cache : List PaletteCacheEntry) :
    ((renderAssFrame images mode allocs cache).2 = cache ∨
        (renderAssFrame images mode allocs cache).2 = (framePalette mode allocs.modeCopy cache).2) ∧
      ∀ pal, (renderAssFrame images mode allocs cache).1.palette = some pal →
        pal = (framePalette mode allocs.modeCopy cache).1 := by
  dsimp only [renderAssFrame]
  split_ifs
  iterate 4 exact ⟨.inl rfl, fun _ h ↦ absurd h (by simp)⟩
  · exact ⟨.inr rfl, fun _ h ↦ absurd h (by simp)⟩
  · exact ⟨.inr rfl, fun _ h ↦ (Option.some.inj h).symm⟩

/-- `render_ass_frame` composites its tiles: a frame with an index buffer carries a palette, its
buffer covers its box, and at every position of the box it holds the index of the palette entry
nearest to the colour of the first tile of greatest coverage there (0 where no tile covers it),
which is an index of the 16-entry palette. -/
theorem renderAssFrame_composite (hframe : renderAssFrame images mode allocs cache = (bm, cache'))
    {idx : List ℕ} (hidx : bm.idxbuf = some idx) :
    ∃ pal, bm.palette = some pal ∧ idx.length = (bm.w * bm.h).toNat ∧
      ∀ q (hq : q < idx.length),
        idx[q] = compositeIndex pal images (bm.x + (q % bm.w.toNat : ℕ)) (bm.y + (q / bm.w.toNat : ℕ)) ∧
          idx[q] < 16 := by
  obtain ⟨hw, -, hx, hy, hpal, rfl⟩ := renderAssFrame_of_idxbuf_eq_some hframe hidx
  have hloop := foldl_compositeTile (framePalette mode allocs.modeCopy cache).1
    (assBoundingBox images) (h := bm.h) hw images .empty (List.replicate (bm.w * bm.h).toNat (0, 0))
    (colorCacheInv_empty _) List.length_replicate
  refine ⟨_, hpal, by simp [hloop], fun q hq ↦ ?_⟩
  have hentry : ((images.foldl (compositeTile (framePalette mode allocs.modeCopy cache).1
      (assBoundingBox images) bm.w bm.h)
        (.empty, List.replicate (bm.w * bm.h).toNat (0, 0))).2.map Prod.snd)[q] =
      compositeIndex (framePalette mode allocs.modeCopy cache).1 images
        (bm.x + (q % bm.w.toNat : ℕ)) (bm.y + (q / bm.w.toNat : ℕ)) := by
    simp only [hloop, List.getElem_map, List.getElem_mapIdx, List.getElem_replicate]
    rw [hx, hy, compositeIndex_eq_foldl]
    rfl
  exact ⟨hentry, hentry ▸ compositeIndex_lt _ _ _ _⟩

theorem renderAssFrame_composite_whiteRed :
    renderAssFrame whiteRedTiles none assAllocsOk paletteCacheInit =
        (⟨3, 1, 0, 0, some [1, 6, 6], some (initPalette none)⟩,
          paletteCacheInsert none (initPalette none) true paletteCacheInit) ∧
      (⟨3, 1, 0, 0, some [1, 6, 6], some (initPalette none)⟩ : AssBitmap).idxbuf = some [1, 6, 6] ∧
      ∃ pal, (⟨3, 1, 0, 0, some [1, 6, 6], some (initPalette none)⟩ : AssBitmap).palette = some pal ∧
        [1, 6, 6].length = ((3 : ℤ) * 1).toNat ∧
        ∀ q (hq : q < [1, 6, 6].length),
          [1, 6, 6][q] = compositeIndex pal whiteRedTiles (0 + (q % (3 : ℤ).toNat : ℕ))
            (0 + (q / (3 : ℤ).toNat : ℕ)) ∧ [1, 6, 6][q] < 16 :=
  by
  have hframe : renderAssFrame whiteRedTiles none assAllocsOk paletteCacheInit =
      (⟨3, 1, 0, 0, some [1, 6, 6], some (initPalette none)⟩,
        paletteCacheInsert none (initPalette none) true paletteCacheInit) := by decide
  exact ⟨hframe, rfl, renderAssFrame_composite hframe rfl⟩

/-- The union box loses no covered position: every position where a tile has coverage lies in
the rectangle of the frame, whatever the allocations gave. -/
theorem renderAssFrame_covers (hframe : renderAssFrame images mode allocs cache = (bm, cache'))
    {t : AssImage} (ht : t ∈ images) {x y : ℤ} (hcov : 0 < tileCoverageAt t x y) :
    bm.x ≤ x ∧ x < bm.x + bm.w ∧ bm.y ≤ y ∧ y < bm.y + bm.h := by
  unfold tileCoverageAt at hcov
  split_ifs at hcov with hin
  · obtain ⟨hvalid, hx₁, hx₂, hy₁, hy₂⟩ := hin
    obtain ⟨-, htw, hth, -⟩ := renderAssValidateImageTile_spec hvalid
    have hbox : (assBoundingBox images).Covers t := foldl_assBoxStep_covers images _ ht htw hth
    obtain ⟨hminx, hmaxx, hminy, hmaxy⟩ := hbox
    obtain ⟨hbx, hby, hbw, hbh⟩ := renderAssFrame_geometry hframe (by omega) (by omega)
    rw [hbx, hby, hbw, hbh]
    omega
  · exact absurd hcov (Nat.lt_irrefl 0)

theorem renderAssFrame_covers_whiteRed :
    renderAssFrame whiteRedTiles none assAllocsOk paletteCacheInit =
        (⟨3, 1, 0, 0, some [1, 6, 6], some (initPalette none)⟩,
          paletteCacheInsert none (initPalette none) true paletteCacheInit) ∧
      ⟨2, 1, 2, some [100, 200], 1, 0, 0xFFFF0000⟩ ∈ whiteRedTiles ∧
      0 < tileCoverageAt ⟨2, 1, 2, some [100, 200], 1, 0, 0xFFFF0000⟩ 2 0 ∧
      ((0 : ℤ) ≤ 2 ∧ (2 : ℤ) < 0 + 3 ∧ (0 : ℤ) ≤ 0 ∧ (0 : ℤ) < 0 + 1) :=
  by
  have hframe : renderAssFrame whiteRedTiles none assAllocsOk paletteCacheInit =
      (⟨3, 1, 0, 0, some [1, 6, 6], some (initPalette none)⟩,
        paletteCacheInsert none (initPalette none) true paletteCacheInit) := by decide
  have ht : (⟨2, 1, 2, some [100, 200], 1, 0, 0xFFFF0000⟩ : AssImage) ∈ whiteRedTiles := by decide
  have hcov : 0 < tileCoverageAt ⟨2, 1, 2, some [100, 200], 1, 0, 0xFFFF0000⟩ 2 0 := by decide
  exact ⟨hframe, ht, hcov, renderAssFrame_covers hframe ht hcov⟩

end Call

/-! ### Runs of calls -/

/-- One call of `render_ass_frame`: the tiles libass renders, the palette mode, and the outcome
of the allocations. -/
structure AssFrameCall where
  images : List AssImage
  mode : Option (List Char)
  allocs : AssFrameAllocs

/-- A call as a step on the static palette cache, answered by the frame. -/
def assFrameStep (cache : List PaletteCacheEntry) (call : AssFrameCall) :
    Option (AssBitmap × List PaletteCacheEntry) :=
  some (renderAssFrame call.images call.mode call.allocs cache)

/-- A call keeps the palette cache's invariant. -/
theorem assFrameStep_inv {cache cache₁ : List PaletteCacheEntry} {call : AssFrameCall}
    {bm : AssBitmap} (hinv : PaletteCacheInv cache)
    (hstep : assFrameStep cache call = some (bm, cache₁)) : PaletteCacheInv cache₁ := by
  have hcache : cache₁ = (renderAssFrame call.images call.mode call.allocs cache).2 :=
    (congrArg Prod.snd (Option.some.inj hstep)).symm
  rcases (renderAssFrame_palette_cache call.images call.mode call.allocs cache).1 with h | h
  · rw [hcache, h]
    exact hinv
  · rw [hcache, h]
    exact (framePalette_spec hinv _ _).2

/-- Every run of calls of `render_ass_frame` from the zeroed static cache runs to its end; the
cache keeps four slots, the palette of its mode in every entry in use and no mode in use twice;
and every palette a frame carries is `init_palette` of its call's mode. -/
theorem assFrameRun (calls : List AssFrameCall) :
    ∃ tr cache', Lib.execRun assFrameStep paletteCacheInit calls = some (tr, cache') ∧
      PaletteCacheInv cache' ∧ ∀ e ∈ tr, ∀ pal, e.2.palette = some pal → pal = initPalette e.1.mode := by
  have htotal : ∀ s call, (assFrameStep s call).isSome := fun _ _ ↦ rfl
  obtain ⟨tr, cache', hrun⟩ := Lib.execRun_isSome htotal paletteCacheInit calls
  have hallowed : Lib.Allowed assFrameStep (fun _ _ ↦ True) paletteCacheInit calls :=
    Lib.allowed_of_forall (fun _ _ ↦ trivial) paletteCacheInit calls
  have hstep : ∀ {s a o s₁}, PaletteCacheInv s → True → assFrameStep s a = some (o, s₁) →
      PaletteCacheInv s₁ := fun hinv _ h ↦ assFrameStep_inv hinv h
  refine ⟨tr, cache', hrun, Lib.execRun_inv _ hstep paletteCacheInv_init hallowed hrun,
    Lib.execRun_answers _ (fun e ↦ ∀ pal, e.2.palette = some pal → pal = initPalette e.1.mode)
      hstep ?_ paletteCacheInv_init hallowed hrun⟩
  intro s call o s₁ hinv _ h pal hpal
  have hframe : o = (renderAssFrame call.images call.mode call.allocs s).1 :=
    (congrArg Prod.fst (Option.some.inj h)).symm
  rw [hframe] at hpal
  rw [(renderAssFrame_palette_cache call.images call.mode call.allocs s).2 pal hpal]
  exact (framePalette_spec hinv _ _).1

end Srt2Dvbsub.Render
