import Srt2Dvbsub.Render.Cleanup
import Srt2Dvbsub.Cli.ListParse
import Srt2Dvbsub.Lib.Scan

/-!
# The palette presets and the nearest-colour search

`init_palette` (`render_pango.c`) fills the 16 ARGB entries of a palette mode: a greyscale
ramp, the broadcast table (which `ebu-broadcast` writes again, value for value), or the default
table of eight colours. Every mode starts with the transparent entry `0x00000000`
(`initPalette_getD_zero`).

`nearest_palette_index` maps a colour to the entry closest in RGB. Its loop keeps the best entry
so far and lets a later one replace it only when strictly closer, so it is the scan
`Lib.improveMax` in the order dual (`nearestStep_eq_improveMax`), and it returns the first
closest index below `npal` (`nearestPaletteIndex_eq_argmin`, `nearestPaletteIndex_spec`). The
alpha byte is read by neither side of the comparison, and entry 0 of every preset has the RGB
of black: a colour is mapped to the transparent index exactly when black is among the closest
entries (`nearestPaletteIndex_initPalette_eq_zero_iff`).
-/

set_option autoImplicit false
set_option relaxedAutoImplicit false

namespace Srt2Dvbsub.Render

open Cli (strcasecmpEq)

/-! ### `init_palette` -/

/-- Greyscale entry `i` (for `1 ≤ i < 16`): `(0xFF<<24) | (v<<16) | (v<<8) | v` with
`v = (i-1)*17`. -/
def greyscaleEntry (i : ℕ) : UInt32 :=
  let v : UInt32 := ((i - 1) * 17 : ℕ).toUInt32
  ((0xFF : UInt32) <<< 24) ||| (v <<< 16) ||| (v <<< 8) ||| v

/-- The table of the `broadcast` branch: eight full-bright colours and seven half-bright ones
after the transparent entry. The `ebu-broadcast` branch assigns the same sixteen values. -/
def broadcastPalette : List UInt32 :=
  [0x00000000, 0xFFFFFFFF, 0xFFFFFF00, 0xFF00FFFF, 0xFF00FF00, 0xFFFF00FF, 0xFFFF0000, 0xFF0000FF,
    0xFF000000, 0xFF7F7F7F, 0xFF7F7F00, 0xFF007F7F, 0xFF007F00, 0xFF7F007F, 0xFF7F0000,
    0xFF00007F]

/-- The table of the default branch: seven colours after the transparent entry, then eight
zero entries. -/
def defaultPalette : List UInt32 :=
  [0x00000000, 0xFFFFFFFF, 0xFFFFFF00, 0xFF00FFFF, 0xFF00FF00, 0xFFFF00FF, 0xFFFF0000,
    0xFF000000] ++ List.replicate 8 0x00000000

/-- `init_palette(pal, mode)`: the mode names are compared with `strcasecmp`, and a `NULL` mode
takes the default branch. -/
def initPalette (mode : Option (List Char)) : List UInt32 :=
  if mode.any (strcasecmpEq · "greyscale".toList) then
    0x00000000 :: (List.range' 1 15).map greyscaleEntry
  else if mode.any (strcasecmpEq · "broadcast".toList) then broadcastPalette
  else if mode.any (strcasecmpEq · "ebu-broadcast".toList) then broadcastPalette
  else defaultPalette

@[simp]
theorem length_initPalette (mode : Option (List Char)) : (initPalette mode).length = 16 := by
  unfold initPalette
  split_ifs <;> rfl

/-- Every mode keeps the contract of `init_palette`: entry 0 is transparent. -/
@[simp]
theorem initPalette_getD_zero (mode : Option (List Char)) : (initPalette mode).getD 0 0 = 0 := by
  unfold initPalette
  split_ifs <;> rfl

/-! ### `nearest_palette_index` -/

/-- The squared RGB distance `dr*dr + dg*dg + db*db` of `nearest_palette_index`, in `int`; the
alpha bytes are not read. -/
def rgbDistance (p argb : UInt32) : ℤ :=
  let dr : ℤ := paletteByte argb 16 - paletteByte p 16
  let dg : ℤ := paletteByte argb 8 - paletteByte p 8
  let db : ℤ := paletteByte argb 0 - paletteByte p 0
  dr * dr + dg * dg + db * db

/-- One turn of the loop of `nearest_palette_index` on `(bestdiff, best)`: entry `i` replaces the
best so far when it is strictly closer. -/
def nearestStep (palette : List UInt32) (argb : UInt32) (best : ℤ × ℕ) (i : ℕ) : ℤ × ℕ :=
  let diff := rgbDistance (palette.getD i 0) argb
  if diff < best.1 then (diff, i) else best

/-- `nearest_palette_index(palette, npal, argb)`: the loop over `i < npal` from `best = 1` and
`bestdiff = INT_MAX`. -/
def nearestPaletteIndex (palette : List UInt32) (npal : ℤ) (argb : UInt32) : ℕ :=
  ((List.range npal.toNat).foldl (nearestStep palette argb) (CLib.INT_MAX, 1)).2

theorem paletteByte_le (p : UInt32) (shift : ℕ) : paletteByte p shift ≤ 255 := by
  have := Nat.mod_lt (p.toNat / 2 ^ shift) (show 0 < 256 by norm_num)
  unfold paletteByte
  omega

/-- A channel difference of two bytes squares to at most `255 * 255`. -/
theorem byte_sub_sq_le (a b : ℕ) (ha : a ≤ 255) (hb : b ≤ 255) :
    ((a : ℤ) - b) * ((a : ℤ) - b) ≤ 255 * 255 := by
  have ha' : (a : ℤ) ≤ 255 := by exact_mod_cast ha
  have hb' : (b : ℤ) ≤ 255 := by exact_mod_cast hb
  have ha₀ : (0 : ℤ) ≤ a := Int.natCast_nonneg a
  have hb₀ : (0 : ℤ) ≤ b := Int.natCast_nonneg b
  nlinarith

/-- No distance reaches the start value `INT_MAX`, so the first entry always replaces it. -/
theorem rgbDistance_lt_INT_MAX (p argb : UInt32) : rgbDistance p argb < CLib.INT_MAX := by
  have hr := byte_sub_sq_le _ _ (paletteByte_le argb 16) (paletteByte_le p 16)
  have hg := byte_sub_sq_le _ _ (paletteByte_le argb 8) (paletteByte_le p 8)
  have hb := byte_sub_sq_le _ _ (paletteByte_le argb 0) (paletteByte_le p 0)
  dsimp only [rgbDistance, CLib.INT_MAX]
  omega

/-- The loop body is the scan step for the greatest value in the order dual, which is the least
distance. -/
theorem nearestStep_eq_improveMax (palette : List UInt32) (argb : UInt32) :
    nearestStep palette argb =
      Lib.improveMax (β := ℤᵒᵈ) (fun i ↦ OrderDual.toDual (rgbDistance (palette.getD i 0) argb))
        id :=
  rfl

/-- For `npal ≥ 1` the loop returns the first index of least distance below `npal`. -/
theorem nearestPaletteIndex_eq_argmin (palette : List UInt32) {npal : ℤ} (hnpal : 0 < npal)
    (argb : UInt32) :
    (List.range npal.toNat).argmin (fun i ↦ rgbDistance (palette.getD i 0) argb) =
      some (nearestPaletteIndex palette npal argb) := by
  set d := fun i ↦ rgbDistance (palette.getD i 0) argb with hd
  have hne : List.range npal.toNat ≠ [] := by
    rw [Ne, List.range_eq_nil]
    omega
  obtain ⟨m, hm⟩ := Option.ne_none_iff_exists'.mp (mt (List.argmin_eq_none (f := d)).mp hne)
  have hscan := Lib.foldl_improveMax (β := ℤᵒᵈ) (fun i ↦ OrderDual.toDual (d i)) id
    (OrderDual.toDual CLib.INT_MAX) 1 (List.range npal.toNat)
  have hdual : (List.range npal.toNat).argmax (fun i ↦ OrderDual.toDual (d i)) = some m := hm
  have hbeat : OrderDual.toDual CLib.INT_MAX < OrderDual.toDual (d m) :=
    OrderDual.toDual_lt_toDual.mpr (rgbDistance_lt_INT_MAX _ _)
  rw [hdual, Option.elim_some, if_pos hbeat] at hscan
  rw [hm, nearestPaletteIndex, nearestStep_eq_improveMax]
  exact congrArg (some ∘ Prod.snd) hscan.symm

theorem nearestPaletteIndex_lt (palette : List UInt32) {npal : ℤ} (hnpal : 0 < npal)
    (argb : UInt32) : nearestPaletteIndex palette npal argb < npal.toNat :=
  ((Lib.argmin_range_eq_some_iff _).mp (nearestPaletteIndex_eq_argmin palette hnpal argb)).1

/-- `nearest_palette_index` with `npal ≥ 1` returns an index below `npal` whose entry is
closest in RGB to the colour, and every smaller index is strictly farther. -/
theorem nearestPaletteIndex_spec (palette : List UInt32) {npal : ℤ} (hnpal : 0 < npal)
    (argb : UInt32) :
    nearestPaletteIndex palette npal argb < npal.toNat ∧
      (∀ j < npal.toNat,
        rgbDistance (palette.getD (nearestPaletteIndex palette npal argb) 0) argb ≤
          rgbDistance (palette.getD j 0) argb) ∧
      ∀ j < nearestPaletteIndex palette npal argb,
        rgbDistance (palette.getD (nearestPaletteIndex palette npal argb) 0) argb <
          rgbDistance (palette.getD j 0) argb :=
  (Lib.argmin_range_eq_some_iff _).mp (nearestPaletteIndex_eq_argmin palette hnpal argb)

theorem nearestPaletteIndex_spec_default :
    (0 : ℤ) < 16 ∧
      nearestPaletteIndex (initPalette none) 16 0xFF102030 < (16 : ℤ).toNat ∧
      (∀ j < (16 : ℤ).toNat,
        rgbDistance ((initPalette none).getD (nearestPaletteIndex (initPalette none) 16 0xFF102030)
          0) 0xFF102030 ≤ rgbDistance ((initPalette none).getD j 0) 0xFF102030) ∧
      ∀ j < nearestPaletteIndex (initPalette none) 16 0xFF102030,
        rgbDistance ((initPalette none).getD (nearestPaletteIndex (initPalette none) 16 0xFF102030)
          0) 0xFF102030 < rgbDistance ((initPalette none).getD j 0) 0xFF102030 :=
  ⟨by norm_num, nearestPaletteIndex_spec (initPalette none) (by norm_num) 0xFF102030⟩

/-- Over every preset, `nearest_palette_index(pal, 16, argb)` is the transparent index 0
exactly when black, the RGB of entry 0, is as close to the colour as every entry. -/
theorem nearestPaletteIndex_initPalette_eq_zero_iff (mode : Option (List Char)) (argb : UInt32) :
    nearestPaletteIndex (initPalette mode) 16 argb = 0 ↔
      ∀ j < 16, rgbDistance 0 argb ≤ rgbDistance ((initPalette mode).getD j 0) argb := by
  obtain ⟨hlt, hmin, hfirst⟩ := (Lib.argmin_range_eq_some_iff _).mp
    (nearestPaletteIndex_eq_argmin (initPalette mode) (by norm_num : (0 : ℤ) < 16) argb)
  have h16 : (16 : ℤ).toNat = 16 := rfl
  rw [h16] at hlt hmin
  constructor
  · intro hzero
    rw [hzero, initPalette_getD_zero] at hmin
    exact hmin
  · intro hblack
    by_contra hne
    have hcloser := hfirst 0 (Nat.pos_of_ne_zero hne)
    rw [initPalette_getD_zero] at hcloser
    exact absurd (hblack _ hlt) (not_le.mpr hcloser)

end Srt2Dvbsub.Render
