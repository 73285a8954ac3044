import Srt2Dvbsub.Render.Palette

/-!
# The allocation guards of `render_pango.c`

Every buffer `render_text_pango` allocates for a bitmap of `w × h` pixels goes through
`mul_size_ok`, which computes a product of two `size_t` only when `a > SIZE_MAX / b` says it does
not overflow, and `safe_malloc_count`, which also refuses more than
`RENDER_PANGO_SAFE_MAX_PIXELS` items. The index buffer and the palette of the returned bitmap are
allocated by `allocate_bitmap_buffers`, with a cap of `RENDER_PANGO_SAFE_MAX_DIM` on each side,
from the `int` width and height of the rendered text converted to `size_t`.

`mulSizeOk_eq_some_iff` shows that the division test detects overflow exactly.
`allocateBitmapBuffers_eq_some` is the inversion of the allocation, and
`allocateBitmapBuffers_spec` its outcome for every `int` width and height: it succeeds exactly
when both sides are positive and within the caps and the product within the pixel cap, a negative
side being turned by the conversion into a huge `size_t` that the cap refuses; the index buffer
then has exactly `w * h` bytes, so every pixel index `y * w + x` of the image lies inside it, and
the palette is the one `init_palette` fills, with 16 entries.

Scope. `calloc` and the `malloc` of `safe_malloc_count` enter as their outcomes. `size_t` is 64
bits wide.
-/

set_option autoImplicit false
set_option relaxedAutoImplicit false

namespace Srt2Dvbsub.Render

open CLib

/-- `SIZE_MAX` of a 64-bit `size_t`. -/
def SIZE_MAX : ℕ := 2 ^ 64 - 1

/-- `RENDER_PANGO_SAFE_MAX_DIM`: the cap on each side of a bitmap. -/
def RENDER_PANGO_SAFE_MAX_DIM : ℕ := 20000

/-- The conversion `(size_t)v` of an `int`: modulo `2^64`. -/
def sizeOfInt (v : ℤ) : ℕ :=
  (v % 2 ^ 64).toNat

/-- `mul_size_ok(a, b, &out)`: the product stored in `out`, or `none` when the function returns
`0`. -/
def mulSizeOk (a b : ℕ) : Option ℕ :=
  if a = 0 ∨ b = 0 then some 0
  else if a > SIZE_MAX / b then none
  else some (a * b)

/-- `safe_malloc_count(nitems, itemsize)`: the byte count handed to `malloc`, or `none` when the
function returns `NULL` before allocating. -/
def safeMallocCount (nitems itemsize : ℕ) : Option ℕ :=
  let bytes := if itemsize ≠ 0 then mulSizeOk nitems itemsize else some 0
  bytes.bind fun bytes ↦ if nitems > RENDER_PANGO_SAFE_MAX_PIXELS then none else some bytes

/-- What `allocate_bitmap_buffers` records in the `Bitmap`: `idxbuf_len`, the entries of
`palette`, `nb_colors` and `palette_bytes`. -/
structure BitmapBuffers where
  idxbufLen : ℕ
  palette : List UInt32
  nbColors : ℕ
  paletteBytes : ℕ
  deriving DecidableEq, Repr

/-- `allocate_bitmap_buffers(bm, w, h, palette_mode)` with the outcomes of `calloc` and of the
`malloc` of the palette: the buffers on success, `none` when it returns `0`. -/
def allocateBitmapBuffers (w h : ℕ) (paletteMode : Option (List Char))
    (callocOk mallocOk : Bool) : Option BitmapBuffers :=
  if w = 0 ∨ h = 0 then none
  else if w > RENDER_PANGO_SAFE_MAX_DIM ∨ h > RENDER_PANGO_SAFE_MAX_DIM then none
  else
    match mulSizeOk w h with
    | none => none
    | some pixCount =>
      if pixCount > RENDER_PANGO_SAFE_MAX_PIXELS then none
      else if !callocOk then none
      else
        -- `sizeof(uint32_t)` is 4
        match safeMallocCount 16 4 with
        | none => none
        | some _ => if mallocOk then some ⟨pixCount, initPalette paletteMode, 16, 16 * 4⟩ else none

/-! ### `mul_size_ok` -/

/-- The division test of `mul_size_ok` detects overflow exactly: it yields a product exactly
when the product fits in a `size_t`, and then the product is exact. -/
theorem mulSizeOk_eq_some_iff {a b p : ℕ} :
    mulSizeOk a b = some p ↔ p = a * b ∧ a * b ≤ SIZE_MAX := by
  unfold mulSizeOk
  by_cases hzero : a = 0 ∨ b = 0
  · rw [if_pos hzero]
    have hprod : a * b = 0 := by
      rcases hzero with rfl | rfl <;> simp
    rw [hprod, Option.some.injEq]
    constructor
    · rintro rfl
      exact ⟨rfl, Nat.zero_le _⟩
    · rintro ⟨rfl, -⟩
      rfl
  · rw [if_neg hzero]
    have hb : 0 < b := by omega
    have hdiv : SIZE_MAX / b < a ↔ SIZE_MAX < a * b := Nat.div_lt_iff_lt_mul hb
    by_cases hover : a > SIZE_MAX / b
    · rw [if_pos hover]
      have := hdiv.mp hover
      simp only [reduceCtorEq, false_iff, not_and, not_le]
      exact fun _ ↦ this
    · rw [if_neg hover, Option.some.injEq]
      have := not_lt.mp (mt hdiv.mpr hover)
      constructor
      · rintro rfl
        exact ⟨rfl, this⟩
      · rintro ⟨rfl, -⟩
        rfl

/-- The palette request `safe_malloc_count(16, sizeof(uint32_t))` passes both guards. -/
theorem safeMallocCount_palette : safeMallocCount 16 4 = some 64 := by
  decide

/-! ### `allocate_bitmap_buffers` -/

/-- The allocation succeeds exactly when both sides are positive and within the cap, the product
within the pixel cap and both allocations succeed; it then records the product as the length of
the index buffer and the palette `init_palette` fills. -/
theorem allocateBitmapBuffers_eq_some {w h : ℕ} {paletteMode : Option (List Char)}
    {callocOk mallocOk : Bool} {bufs : BitmapBuffers} :
    allocateBitmapBuffers w h paletteMode callocOk mallocOk = some bufs ↔
      0 < w ∧ 0 < h ∧ w ≤ RENDER_PANGO_SAFE_MAX_DIM ∧ h ≤ RENDER_PANGO_SAFE_MAX_DIM ∧
        w * h ≤ RENDER_PANGO_SAFE_MAX_PIXELS ∧ callocOk = true ∧ mallocOk = true ∧
        bufs = ⟨w * h, initPalette paletteMode, 16, 64⟩ := by
  have hfits : ∀ {w h : ℕ}, w ≤ RENDER_PANGO_SAFE_MAX_DIM → h ≤ RENDER_PANGO_SAFE_MAX_DIM →
      w * h ≤ SIZE_MAX := fun hw hh ↦
    (Nat.mul_le_mul hw hh).trans (by decide)
  unfold allocateBitmapBuffers
  by_cases hzero : w = 0 ∨ h = 0
  · rw [if_pos hzero]
    simp only [reduceCtorEq, false_iff]
    omega
  rw [if_neg hzero]
  by_cases hcap : w > RENDER_PANGO_SAFE_MAX_DIM ∨ h > RENDER_PANGO_SAFE_MAX_DIM
  · rw [if_pos hcap]
    simp only [reduceCtorEq, false_iff]
    omega
  rw [if_neg hcap]
  have hmul : mulSizeOk w h = some (w * h) :=
    mulSizeOk_eq_some_iff.mpr ⟨rfl, hfits (by omega) (by omega)⟩
  simp only [hmul, safeMallocCount_palette]
  by_cases hpix : w * h > RENDER_PANGO_SAFE_MAX_PIXELS
  · rw [if_pos hpix]
    simp only [reduceCtorEq, false_iff]
    omega
  rw [if_neg hpix]
  have hguards : 0 < w ∧ 0 < h ∧ w ≤ RENDER_PANGO_SAFE_MAX_DIM ∧ h ≤ RENDER_PANGO_SAFE_MAX_DIM ∧
      w * h ≤ RENDER_PANGO_SAFE_MAX_PIXELS := by omega
  simp only [hguards, true_and]
  cases callocOk <;> cases mallocOk <;> simp [eq_comm]

/-- The index of pixel `(x, y)` of a `w × h` image lies inside a buffer of `w * h` bytes. -/
theorem pixelIndex_lt {w h x y : ℤ} (hx0 : 0 ≤ x) (hx : x < w) (hy : y < h) :
    y * w + x < w * h :=
  calc y * w + x < y * w + w := by omega
    _ = (y + 1) * w := by ring
    _ ≤ h * w := Int.mul_le_mul_of_nonneg_right (by omega) (by omega)
    _ = w * h := Int.mul_comm h w

/-- A negative `int` converted to `size_t` is above the cap on a side. -/
theorem safeMaxDim_lt_sizeOfInt {v : ℤ} (hlow : INT_MIN ≤ v) (hneg : v < 0) :
    RENDER_PANGO_SAFE_MAX_DIM < sizeOfInt v := by
  unfold INT_MIN at hlow
  have hmod : v % 2 ^ 64 = v + 2 ^ 64 := by
    rw [Int.emod_eq_add_self_emod, Int.emod_eq_of_lt (by omega) (by omega)]
  unfold sizeOfInt RENDER_PANGO_SAFE_MAX_DIM
  omega

/-- A side passes the guards of `allocate_bitmap_buffers` after the conversion exactly when the
`int` is positive and within the cap; a non-negative `int` is kept by the conversion. -/
theorem sizeOfInt_mem_cap {v : ℤ} (hv : INT_MIN ≤ v ∧ v ≤ INT_MAX) :
    (0 < sizeOfInt v ∧ sizeOfInt v ≤ RENDER_PANGO_SAFE_MAX_DIM ↔
        0 < v ∧ v ≤ RENDER_PANGO_SAFE_MAX_DIM) ∧
      (0 ≤ v → (sizeOfInt v : ℤ) = v) := by
  have hkeep : 0 ≤ v → (sizeOfInt v : ℤ) = v := by
    intro hnonneg
    have hhigh := hv.2
    unfold INT_MAX at hhigh
    unfold sizeOfInt
    rw [Int.emod_eq_of_lt hnonneg (by omega), Int.toNat_of_nonneg hnonneg]
  refine ⟨?_, hkeep⟩
  by_cases hneg : v < 0
  · have := safeMaxDim_lt_sizeOfInt hv.1 hneg
    omega
  · have := hkeep (by omega)
    omega

/-- `allocate_bitmap_buffers(&bm, (size_t)w, (size_t)h, palette_mode)` as `render_text_pango`
calls it, for every `int` width and height and every outcome of the two allocations: it
succeeds exactly when both sides are positive and at most `RENDER_PANGO_SAFE_MAX_DIM`, the
area at most `RENDER_PANGO_SAFE_MAX_PIXELS` and both allocations succeed; the index buffer then
has `w * h` bytes, every pixel index `y * w + x` of the image lies inside it, and the palette
is the 16 entries of `init_palette`. -/
theorem allocateBitmapBuffers_spec (w h : ℤ) (hw : INT_MIN ≤ w ∧ w ≤ INT_MAX)
    (hh : INT_MIN ≤ h ∧ h ≤ INT_MAX) (paletteMode : Option (List Char))
    (callocOk mallocOk : Bool) :
    let result := allocateBitmapBuffers (sizeOfInt w) (sizeOfInt h) paletteMode callocOk mallocOk
    (result.isSome = true ↔
      0 < w ∧ 0 < h ∧ w ≤ RENDER_PANGO_SAFE_MAX_DIM ∧ h ≤ RENDER_PANGO_SAFE_MAX_DIM ∧
        w * h ≤ RENDER_PANGO_SAFE_MAX_PIXELS ∧ callocOk = true ∧ mallocOk = true) ∧
      ∀ bufs ∈ result, (bufs.idxbufLen : ℤ) = w * h ∧
        (∀ x y : ℤ, 0 ≤ x → x < w → 0 ≤ y → y < h →
          0 ≤ y * w + x ∧ y * w + x < bufs.idxbufLen) ∧
        bufs.palette = initPalette paletteMode ∧ bufs.palette.length = 16 := by
  intro result
  obtain ⟨hwcap, hwkeep⟩ := sizeOfInt_mem_cap hw
  obtain ⟨hhcap, hhkeep⟩ := sizeOfInt_mem_cap hh
  have harea : 0 < w → 0 < h →
      ((sizeOfInt w * sizeOfInt h : ℕ) : ℤ) = w * h := fun hw0 hh0 ↦ by
    push_cast
    rw [hwkeep hw0.le, hhkeep hh0.le]
  constructor
  · rw [Option.isSome_iff_exists]
    constructor
    · rintro ⟨bufs, hbufs⟩
      obtain ⟨hw0, hh0, hw1, hh1, hpix, hc, hm, -⟩ := allocateBitmapBuffers_eq_some.mp hbufs
      obtain ⟨hw0', hw1'⟩ := hwcap.mp ⟨hw0, hw1⟩
      obtain ⟨hh0', hh1'⟩ := hhcap.mp ⟨hh0, hh1⟩
      refine ⟨hw0', hh0', hw1', hh1', ?_, hc, hm⟩
      rw [← harea hw0' hh0']
      exact_mod_cast hpix
    · rintro ⟨hw0, hh0, hw1, hh1, hpix, hc, hm⟩
      obtain ⟨hw0', hw1'⟩ := hwcap.mpr ⟨hw0, hw1⟩
      obtain ⟨hh0', hh1'⟩ := hhcap.mpr ⟨hh0, hh1⟩
      have hpix' : sizeOfInt w * sizeOfInt h ≤ RENDER_PANGO_SAFE_MAX_PIXELS := by
        have := harea hw0 hh0
        omega
      exact ⟨_, allocateBitmapBuffers_eq_some.mpr ⟨hw0', hh0', hw1', hh1', hpix', hc, hm, rfl⟩⟩
  · intro bufs hbufs
    obtain ⟨hw0, hh0, hw1, hh1, -, -, -, rfl⟩ := allocateBitmapBuffers_eq_some.mp hbufs
    obtain ⟨hw0', -⟩ := hwcap.mp ⟨hw0, hw1⟩
    obtain ⟨hh0', -⟩ := hhcap.mp ⟨hh0, hh1⟩
    refine ⟨harea hw0' hh0', fun x y hx0 hx hy0 hy ↦ ?_, rfl, length_initPalette _⟩
    rw [harea hw0' hh0']
    exact ⟨by positivity, pixelIndex_lt hx0 hx hy⟩

/-- A width of `-1`, which the conversion turns into `SIZE_MAX`, is refused. -/
theorem allocateBitmapBuffers_spec_negativeWidth :
    (allocateBitmapBuffers (sizeOfInt (-1)) (sizeOfInt 96) none true true).isSome = false := by
  cases hres : (allocateBitmapBuffers (sizeOfInt (-1)) (sizeOfInt 96) none true true).isSome
  · rfl
  · have hpos := ((allocateBitmapBuffers_spec (-1) 96 (by decide) (by decide) none true true).1.mp
      hres).1
    omega

end Srt2Dvbsub.Render
