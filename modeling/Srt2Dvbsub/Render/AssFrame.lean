import Srt2Dvbsub.Render.Palette
import Srt2Dvbsub.Lib.Refinement

/-!
# Compositing the libass tiles of a frame

`render_ass_frame` (`render_ass.c`) turns the tiles libass renders for one timestamp into one
indexed bitmap. It bounds the tiles that are not degenerate by one box, allocates an index
buffer and a coverage buffer of the box's size, takes the palette of the palette mode from a
static cache of four entries kept in most-recently-used order, and then, tile by tile, maps the
tile's colour to a palette index through a per-frame cache of 128 colours and writes that index
at every pixel where the tile's coverage is greater than the coverage written there before.

This module is the model: the tile and the box (`AssImage`, `assBoundingBox`), the tile check
(`renderAssValidateImageTile`), the colour cache (`colorCacheLookup`), the two critical
sections of the palette cache (`paletteCacheLookup`, `paletteCacheInsert`), the pixel loop
(`blendPixel`, `compositeTile`) and the whole call (`renderAssFrame`), with the outcome of each
allocation as an input. The two buffers are kept as one list of pairs
`(covbuf[idx], idxbuf[idx])`, since the loop reads and writes them at the same index only.

The properties proved here are those of the caches: the colour cache hands out the index
`nearest_palette_index` gives and writes within its 128 slots (`colorCacheLookup_spec`), and the
palette cache holds, in every entry in use, the palette `init_palette` computes for the entry's
mode, with no mode in use twice (`framePalette_spec`). `Srt2Dvbsub.Render.AssComposite` proves
what the frame holds.
-/

set_option autoImplicit false
set_option relaxedAutoImplicit false

namespace Srt2Dvbsub.Render

open CLib (INT_MAX INT_MIN)

/-! ### Tiles and the union box -/

/-- An `ASS_Image` tile as `render_ass_frame` reads it: size, row stride, the coverage bytes
(`none` for a `NULL` bitmap), destination and colour. -/
structure AssImage where
  w : ℤ
  h : ℤ
  stride : ℤ
  bitmap : Option (List UInt8)
  dstX : ℤ
  dstY : ℤ
  color : UInt32
  deriving DecidableEq, Repr

/-- `MAX_TILE_PIXELS` of `render_ass_validate_image_tile`. -/
def MAX_TILE_PIXELS : ℤ := 10 * 1000 * 1000

/-- `render_ass_validate_image_tile(w, h, stride, bitmap)`. -/
def renderAssValidateImageTile (w h stride : ℤ) (bitmap : Option (List UInt8)) : Bool :=
  if bitmap.isNone then false
  else if w ≤ 0 ∨ h ≤ 0 then false
  else if stride ≤ 0 then false
  else if stride < w then false
  else
    let pixels := stride * h
    if pixels = 0 ∨ MAX_TILE_PIXELS < pixels then false else true

/-- A tile that passes the check has a bitmap, a positive size and rows as wide as the tile. -/
theorem renderAssValidateImageTile_spec {w h stride : ℤ} {bitmap : Option (List UInt8)}
    (hvalid : renderAssValidateImageTile w h stride bitmap = true) :
    bitmap.isSome ∧ 0 < w ∧ 0 < h ∧ w ≤ stride := by
  unfold renderAssValidateImageTile at hvalid
  split_ifs at hvalid with hnone hsize hstride hw
  refine ⟨Option.isSome_iff_ne_none.mpr (by simpa using hnone), ?_, ?_, not_lt.mp hw⟩ <;> omega

/-- The union box `minx`, `miny`, `maxx`, `maxy` of `render_ass_frame`. -/
structure AssBox where
  minx : ℤ
  miny : ℤ
  maxx : ℤ
  maxy : ℤ
  deriving DecidableEq, Repr

/-- One turn of the box loop: a tile of positive size widens the box to cover it. -/
def assBoxStep (box : AssBox) (t : AssImage) : AssBox :=
  if t.w ≤ 0 ∨ t.h ≤ 0 then box
  else ⟨min box.minx t.dstX, min box.miny t.dstY, max box.maxx (t.dstX + t.w),
    max box.maxy (t.dstY + t.h)⟩

/-- The box loop from `minx = miny = INT_MAX` and `maxx = maxy = INT_MIN`. -/
def assBoundingBox (images : List AssImage) : AssBox :=
  images.foldl assBoxStep ⟨INT_MAX, INT_MAX, INT_MIN, INT_MIN⟩

/-- The box covers the rectangle of a tile. -/
def AssBox.Covers (box : AssBox) (t : AssImage) : Prop :=
  box.minx ≤ t.dstX ∧ t.dstX + t.w ≤ box.maxx ∧ box.miny ≤ t.dstY ∧ t.dstY + t.h ≤ box.maxy

theorem assBoxStep_covers_self (box : AssBox) {t : AssImage} (hw : 0 < t.w) (hh : 0 < t.h) :
    (assBoxStep box t).Covers t := by
  rw [assBoxStep, if_neg (by omega)]
  exact ⟨min_le_right _ _, le_max_right _ _, min_le_right _ _, le_max_right _ _⟩

/-- A box only grows, so what it covers it keeps covering. -/
theorem AssBox.Covers.assBoxStep {box : AssBox} {t : AssImage} (hcov : box.Covers t)
    (t' : AssImage) : (Render.assBoxStep box t').Covers t := by
  obtain ⟨h₁, h₂, h₃, h₄⟩ := hcov
  unfold Render.assBoxStep
  split_ifs
  · exact ⟨h₁, h₂, h₃, h₄⟩
  · exact ⟨min_le_of_left_le h₁, le_max_of_le_left h₂, min_le_of_left_le h₃,
      le_max_of_le_left h₄⟩

/-- The box loop ends with a box that covers every tile of positive size. -/
theorem foldl_assBoxStep_covers :
    ∀ (images : List AssImage) (box : AssBox) {t : AssImage}, t ∈ images → 0 < t.w → 0 < t.h →
      (images.foldl assBoxStep box).Covers t := by
  have hkeep : ∀ (images : List AssImage) (box : AssBox) {t : AssImage}, box.Covers t →
      (images.foldl assBoxStep box).Covers t := by
    intro images
    induction images with
    | nil => exact fun _ _ h ↦ h
    | cons t' images ih => exact fun box _ h ↦ ih _ (h.assBoxStep t')
  intro images
  induction images with
  | nil => exact fun _ _ h ↦ absurd h List.not_mem_nil
  | cons t' images ih =>
    intro box t ht hw hh
    rcases List.mem_cons.mp ht with rfl | ht
    · exact hkeep images _ (assBoxStep_covers_self box hw hh)
    · exact ih _ ht hw hh

/-! ### The per-frame colour cache -/

/-- `MAX_COLOR_CACHE`. -/
def MAX_COLOR_CACHE : ℕ := 128

/-- The colour cache of one frame: the `color_cache_len` filled slots of `color_cache` as
`(rgba, palidx)`, and `color_cache_evict`. -/
structure ColorCache where
  entries : List (UInt32 × ℕ)
  evict : ℕ
  deriving DecidableEq, Repr

/-- The empty cache a frame starts with. -/
def ColorCache.empty : ColorCache := ⟨[], 0⟩

/-- The colour of a tile as `render_ass_frame` rebuilds it: the four bytes of `cur->color` read
as `a`, `r`, `g`, `b` and put back as `(a << 24) | (r << 16) | (g << 8) | b`. -/
def tileRgba (argb : UInt32) : UInt32 :=
  let a := (argb >>> 24) &&& 0xFF
  let r := (argb >>> 16) &&& 0xFF
  let g := (argb >>> 8) &&& 0xFF
  let b := argb &&& 0xFF
  (a <<< 24) ||| (r <<< 16) ||| (g <<< 8) ||| b

/-- The palette index of a tile colour: the first cached slot of that colour, or
`nearest_palette_index(bm.palette, 16, rgba)`, stored in the next free slot, or in slot
`color_cache_evict` once all 128 are filled. -/
def colorCacheLookup (palette : List UInt32) (cache : ColorCache) (rgba : UInt32) :
    ℕ × ColorCache :=
  match cache.entries.find? (fun e ↦ e.1 == rgba) with
  | some e => (e.2, cache)
  | none =>
    let palidx := nearestPaletteIndex palette 16 rgba
    if cache.entries.length < MAX_COLOR_CACHE then
      (palidx, { cache with entries := cache.entries ++ [(rgba, palidx)] })
    else
      (palidx, ⟨cache.entries.set cache.evict (rgba, palidx), (cache.evict + 1) % MAX_COLOR_CACHE⟩)

/-- What the colour cache keeps: every slot holds the index `nearest_palette_index` gives its
colour, and the slots in use and the eviction slot stay within the 128 slots of the array. -/
structure ColorCacheInv (palette : List UInt32) (cache : ColorCache) : Prop where
  sound : ∀ e ∈ cache.entries, e.2 = nearestPaletteIndex palette 16 e.1
  length_le : cache.entries.length ≤ MAX_COLOR_CACHE
  evict_lt : cache.evict < MAX_COLOR_CACHE

theorem colorCacheInv_empty (palette : List UInt32) : ColorCacheInv palette .empty :=
  ⟨fun _ h ↦ absurd h List.not_mem_nil, Nat.zero_le _, by decide⟩

/-- A lookup hands out the index `nearest_palette_index` gives the colour, and keeps the cache's
invariant. -/
theorem colorCacheLookup_spec {palette : List UInt32} {cache : ColorCache}
    (hinv : ColorCacheInv palette cache) (rgba : UInt32) :
    (colorCacheLookup palette cache rgba).1 = nearestPaletteIndex palette 16 rgba ∧
      ColorCacheInv palette (colorCacheLookup palette cache rgba).2 := by
  unfold colorCacheLookup
  split
  · next e hfind =>
    have hkey : e.1 = rgba := by simpa using List.find?_some hfind
    exact ⟨hkey ▸ hinv.sound e (List.mem_of_find?_eq_some hfind), hinv⟩
  · split
    · next hroom =>
      refine ⟨rfl, fun e he ↦ ?_, ?_, hinv.evict_lt⟩
      · rcases List.mem_append.mp he with he | he
        · exact hinv.sound e he
        · rw [List.mem_singleton.mp he]
      · simp only [List.length_append, List.length_singleton]
        omega
    · refine ⟨rfl, fun e he ↦ ?_, ?_, Nat.mod_lt _ (by decide)⟩
      · rcases List.mem_or_eq_of_mem_set he with he | rfl
        · exact hinv.sound e he
        · rfl
      · rw [List.length_set]
        exact hinv.length_le

/-! ### The static palette cache -/

/-- `PALETTE_CACHE_SIZE`. -/
def PALETTE_CACHE_SIZE : ℕ := 4

/-- A `pal_entry_t` of the palette cache: the mode key (`none` for `NULL`), the palette and
`used`. -/
structure PaletteCacheEntry where
  mode : Option (List Char)
  palette : List UInt32
  used : Bool
  deriving DecidableEq, Repr

/-- The zero-initialised static cache. -/
def paletteCacheInit : List PaletteCacheEntry :=
  List.replicate PALETTE_CACHE_SIZE ⟨none, List.replicate 16 0, false⟩

/-- The test of the lookup loop: an entry in use whose key is the mode (`NULL` matches `NULL`
only, strings are compared with `strcmp`). -/
def paletteCacheHit (mode : Option (List Char)) (e : PaletteCacheEntry) : Bool :=
  e.used && e.mode == mode

/-- The first critical section: on a hit the entry moves to the front and its palette is copied
out; on a miss the cache is left as it is. -/
def paletteCacheLookup (mode : Option (List Char)) (cache : List PaletteCacheEntry) :
    Option (List UInt32) × List PaletteCacheEntry :=
  match cache.find? (paletteCacheHit mode) with
  | some hit => (some hit.palette, hit :: cache.eraseP (paletteCacheHit mode))
  | none => (none, cache)

/-- The second critical section, after a miss: when `insert_cache` holds, the entries shift one
slot back, the last one is evicted, and the new entry takes slot 0. -/
def paletteCacheInsert (mode : Option (List Char)) (palbuf : List UInt32) (insertCache : Bool)
    (cache : List PaletteCacheEntry) : List PaletteCacheEntry :=
  if insertCache then ⟨mode, palbuf, true⟩ :: cache.take (PALETTE_CACHE_SIZE - 1) else cache

/-- The palette block of `render_ass_frame`: the palette of the mode, from the cache or from
`init_palette`, and the cache after it. The entry is inserted unless `strdup` of a non-`NULL`
mode failed. -/
def framePalette (mode : Option (List Char)) (modeCopyOk : Bool)
    (cache : List PaletteCacheEntry) : List UInt32 × List PaletteCacheEntry :=
  match paletteCacheLookup mode cache with
  | (some pal, cache₁) => (pal, cache₁)
  | (none, cache₁) =>
    let palbuf := initPalette mode
    (palbuf, paletteCacheInsert mode palbuf (mode.isNone || modeCopyOk) cache₁)

/-- What the static palette cache keeps: its four slots, the palette of its mode in every entry
in use, and no mode in use twice. -/
structure PaletteCacheInv (cache : List PaletteCacheEntry) : Prop where
  length_eq : cache.length = PALETTE_CACHE_SIZE
  sound : ∀ e ∈ cache, e.used = true → e.palette = initPalette e.mode
  modes_nodup : ((cache.filter PaletteCacheEntry.used).map PaletteCacheEntry.mode).Nodup

theorem paletteCacheInv_init : PaletteCacheInv paletteCacheInit := by
  refine ⟨List.length_replicate, fun e he hused ↦ ?_, ?_⟩
  · rw [List.eq_of_mem_replicate he] at hused
    cases hused
  · simp [paletteCacheInit]

/-- A permutation of the cache keeps its invariant: the move to the front on a hit. -/
theorem PaletteCacheInv.perm {cache cache' : List PaletteCacheEntry}
    (hinv : PaletteCacheInv cache) (hperm : cache'.Perm cache) : PaletteCacheInv cache' where
  length_eq := hperm.length_eq.trans hinv.length_eq
  sound e he := hinv.sound e (hperm.subset he)
  modes_nodup := ((hperm.filter _).map _).nodup_iff.mpr hinv.modes_nodup

/-- A hit hands out the palette of the mode and keeps the invariant. -/
theorem paletteCacheLookup_some {mode : Option (List Char)} {cache cache₁ : List PaletteCacheEntry}
    {pal : List UInt32} (hinv : PaletteCacheInv cache)
    (hlook : paletteCacheLookup mode cache = (some pal, cache₁)) :
    pal = initPalette mode ∧ PaletteCacheInv cache₁ := by
  unfold paletteCacheLookup at hlook
  split at hlook
  · next hit hfind =>
    obtain ⟨hpal, rfl⟩ := Prod.mk.inj hlook
    have hhit : hit.used = true ∧ hit.mode = mode := by
      simpa [paletteCacheHit] using List.find?_some hfind
    refine ⟨?_, hinv.perm (Lib.find?_cons_eraseP_perm hfind)⟩
    rw [← Option.some.inj hpal, hinv.sound hit (List.mem_of_find?_eq_some hfind) hhit.1, hhit.2]
  · cases hlook

/-- A miss leaves the cache as it is, and no entry in use has the mode. -/
theorem paletteCacheLookup_none {mode : Option (List Char)} {cache cache₁ : List PaletteCacheEntry}
    (hlook : paletteCacheLookup mode cache = (none, cache₁)) :
    cache₁ = cache ∧ ∀ e ∈ cache, e.used = true → e.mode ≠ mode := by
  unfold paletteCacheLookup at hlook
  split at hlook
  · cases hlook
  · next hfind =>
    refine ⟨(Prod.mk.inj hlook).2.symm, fun e he hused hmode ↦ ?_⟩
    have := List.find?_eq_none.mp hfind e he
    simp [paletteCacheHit, hused, hmode] at this

/-- Inserting the palette of a mode that no entry in use has keeps the invariant. -/
theorem PaletteCacheInv.insert {cache : List PaletteCacheEntry} (hinv : PaletteCacheInv cache)
    {mode : Option (List Char)} (hfresh : ∀ e ∈ cache, e.used = true → e.mode ≠ mode)
    (insertCache : Bool) :
    PaletteCacheInv (paletteCacheInsert mode (initPalette mode) insertCache cache) := by
  unfold paletteCacheInsert
  split_ifs
  · have hsub : ((cache.take (PALETTE_CACHE_SIZE - 1)).filter PaletteCacheEntry.used).map
        PaletteCacheEntry.mode |>.Sublist ((cache.filter PaletteCacheEntry.used).map
          PaletteCacheEntry.mode) :=
      ((List.take_sublist _ _).filter _).map _
    refine ⟨?_, fun e he hused ↦ ?_, ?_⟩
    · rw [List.length_cons, List.length_take, hinv.length_eq]
      rfl
    · rcases List.mem_cons.mp he with rfl | he
      · rfl
      · exact hinv.sound e (List.mem_of_mem_take he) hused
    · rw [List.filter_cons_of_pos rfl, List.map_cons, List.nodup_cons]
      refine ⟨fun hmem ↦ ?_, hsub.nodup hinv.modes_nodup⟩
      obtain ⟨e, he, hmode⟩ := List.mem_map.mp (hsub.subset hmem)
      obtain ⟨he, hused⟩ := List.mem_filter.mp he
      exact hfresh e he hused hmode
  · exact hinv

/-- The palette block hands out `init_palette` of the mode and keeps the cache's invariant. -/
theorem framePalette_spec {cache : List PaletteCacheEntry} (hinv : PaletteCacheInv cache)
    (mode : Option (List Char)) (modeCopyOk : Bool) :
    (framePalette mode modeCopyOk cache).1 = initPalette mode ∧
      PaletteCacheInv (framePalette mode modeCopyOk cache).2 := by
  unfold framePalette
  split
  · next pal cache₁ hlook => exact paletteCacheLookup_some hinv hlook
  · next cache₁ hlook =>
    obtain ⟨rfl, hfresh⟩ := paletteCacheLookup_none hlook
    exact ⟨rfl, hinv.insert hfresh _⟩

/-! ### The pixel loop and the call -/

/-- The coverage byte `cur->bitmap[yy * cur->stride + xx]`. -/
def tileCoverageByte (t : AssImage) (xx yy : ℕ) : ℕ :=
  ((t.bitmap.getD []).getD (yy * t.stride.toNat + xx) 0).toNat

/-- The pixels of a tile as `(yy, xx)`, in the order of `for (yy < h) for (xx < w)`. -/
def tilePixels (t : AssImage) : List (ℕ × ℕ) :=
  List.range t.h.toNat ×ˢ List.range t.w.toNat

/-- An entry `(covbuf[idx], idxbuf[idx])` after a pixel of coverage `cov` and index `palidx`:
replaced when `cov` is greater than the coverage there. -/
def blendEntry (cov palidx : ℕ) (e : ℕ × ℕ) : ℕ × ℕ :=
  if e.1 < cov then (cov, palidx) else e

/-- The body of the pixel loop: a covered pixel inside the box of width `w` and height `h` is
written at `dy * w + dx` when its coverage is greater than the coverage there. -/
def blendPixel (t : AssImage) (box : AssBox) (w h : ℤ) (palidx : ℕ) (buf : List (ℕ × ℕ))
    (p : ℕ × ℕ) : List (ℕ × ℕ) :=
  let cov := tileCoverageByte t p.2 p.1
  if 0 < cov then
    let dx := t.dstX + p.2 - box.minx
    let dy := t.dstY + p.1 - box.miny
    if 0 ≤ dx ∧ dx < w ∧ 0 ≤ dy ∧ dy < h then
      let idx := (dy * w + dx).toNat
      if idx < buf.length ∧ (buf.getD idx (0, 0)).1 < cov then buf.set idx (cov, palidx)
      else buf
    else buf
  else buf

/-- One turn of the tile loop on the colour cache and the buffers: the colour is looked up for
every tile, and only a tile that passes `render_ass_validate_image_tile` is drawn. -/
def compositeTile (palette : List UInt32) (box : AssBox) (w h : ℤ)
    (st : ColorCache × List (ℕ × ℕ)) (t : AssImage) : ColorCache × List (ℕ × ℕ) :=
  let looked := colorCacheLookup palette st.1 (tileRgba t.color)
  if renderAssValidateImageTile t.w t.h t.stride t.bitmap then
    (looked.2, (tilePixels t).foldl (blendPixel t box w h looked.1) st.2)
  else (looked.2, st.2)

/-- The outcome of each allocation of `render_ass_frame`: the two `calloc`s of the buffers, the
`strdup` of the cache key and the `malloc` of the caller's palette. -/
structure AssFrameAllocs where
  idxbuf : Bool
  covbuf : Bool
  modeCopy : Bool
  palette : Bool
  deriving DecidableEq, Repr

/-- The `Bitmap` `render_ass_frame` returns: position, size, and the two buffers it owns
(`none` for `NULL`). -/
structure AssBitmap where
  w : ℤ := 0
  h : ℤ := 0
  x : ℤ := 0
  y : ℤ := 0
  idxbuf : Option (List ℕ) := none
  palette : Option (List UInt32) := none
  deriving DecidableEq, Repr

/-- `render_ass_frame` on the tiles libass rendered (`[]` for a `NULL` list), with the static
palette cache before and after the call. -/
def renderAssFrame (images : List AssImage) (paletteMode : Option (List Char))
    (allocs : AssFrameAllocs) (cache : List PaletteCacheEntry) :
    AssBitmap × List PaletteCacheEntry :=
  let box := assBoundingBox images
  if box.maxx < box.minx ∨ box.maxy < box.miny then ({}, cache)
  else
    let w := box.maxx - box.minx
    let h := box.maxy - box.miny
    if w ≤ 0 ∨ h ≤ 0 then ({}, cache)
    else
      let bm : AssBitmap := { w := w, h := h, x := box.minx, y := box.miny }
      if !allocs.idxbuf then (bm, cache)
      -- the index buffer is freed again when the coverage buffer or the palette fails
      else if !allocs.covbuf then (bm, cache)
      else
        let pal := framePalette paletteMode allocs.modeCopy cache
        if !allocs.palette then (bm, pal.2)
        else
          let buf := (images.foldl (compositeTile pal.1 box w h)
            (.empty, List.replicate (w * h).toNat (0, 0))).2
          ({ bm with idxbuf := some (buf.map Prod.snd), palette := some pal.1 }, pal.2)

end Srt2Dvbsub.Render
