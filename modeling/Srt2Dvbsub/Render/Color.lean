import Srt2Dvbsub.CLib.Scan

/-!
# Colour strings

The colour options `--fg-color`, `--outline-color`, `--shadow-color` and `--bg-color` are
checked by `validate_color` (`render_params.c`): `#RRGGBB` or `#AARRGGBB` in hexadecimal
digits. Each renderer then decodes the string its own way.

* The libass path, `render_ass_hex_to_ass_color` (`render_ass.c`), reads the digit pairs
  with `parse_hex_byte` and prints the ASS colour `&HAABBGGRR`, whose alpha byte counts
  transparency: `0xFF` minus the alpha read, where a six-digit colour reads alpha `0x00`.
* The Pango path, `parse_hex_color` (`render_pango.c`), reads the pairs with `sscanf` and
  `%02x`, a six-digit colour being opaque (`aa = 255`). It divides each channel by `255.0`;
  the model keeps the integer channels, from which the doubles follow one to one.

On every colour `validate_color` accepts, the two paths read the same red, green and blue,
and for `#AARRGGBB` the ASS alpha byte is `0xFF` minus the Pango alpha; for `#RRGGBB` the ASS
alpha byte is `0xFF`, fully transparent, where Pango draws the colour opaque
(`renderAssHexToAssColor_of_validateColor`). The repository's test pins that value for
`#112233` (`&HFF332211`).
-/

set_option autoImplicit false
set_option relaxedAutoImplicit false

namespace Srt2Dvbsub.Render

open CLib

/-! ### `validate_color` -/

/-- `is_hex_digit` of `render_params.c`. -/
def isHexDigit (c : Char) : Bool :=
  ('0' ≤ c && c ≤ '9') || ('a' ≤ c && c ≤ 'f') || ('A' ≤ c && c ≤ 'F')

theorem isHexDigit_eq_isxdigit (c : Char) : isHexDigit c = isxdigit c :=
  rfl

/-- The failures of `validate_color`. -/
inductive ColorError where
  | empty
  | noHash (colorStr : List Char)
  | badLength (colorStr : List Char)
  | badDigit (colorStr : List Char)
  deriving DecidableEq, Repr

/-- The text written to `errmsg`. -/
def ColorError.message : ColorError → String
  | .empty => "Color cannot be empty"
  | .noHash colorStr =>
    "Color must be in #RRGGBB or #AARRGGBB format (got: " ++ String.ofList colorStr ++ ")"
  | .badLength colorStr =>
    "Color must be 7 characters (#RRGGBB) or 9 characters (#AARRGGBB) (got " ++
      toString colorStr.length ++ ": " ++ String.ofList colorStr ++ ")"
  | .badDigit colorStr =>
    "Color must contain valid hex digits (got: " ++ String.ofList colorStr ++ ")"

/-- `validate_color(color_str, errmsg)`. -/
def validateColor (colorStr : List Char) : Except ColorError Unit :=
  match colorStr with
  | [] => .error .empty
  | c :: digits =>
    if c ≠ '#' then .error (.noHash colorStr)
    else if colorStr.length ≠ 7 ∧ colorStr.length ≠ 9 then .error (.badLength colorStr)
    else if digits.all isHexDigit then .ok ()
    else .error (.badDigit colorStr)

/-- What `validate_color` accepts: a `#` and six or eight hexadecimal digits. -/
theorem validateColor_eq_ok {colorStr : List Char} :
    validateColor colorStr = .ok () ↔
      ∃ digits, colorStr = '#' :: digits ∧ (digits.length = 6 ∨ digits.length = 8) ∧
        ∀ c ∈ digits, isxdigit c = true := by
  unfold validateColor
  split
  · simp
  · rename_i c digits
    split_ifs with hhash hlength hall
    · simp only [false_iff, not_exists, not_and]
      intro d heq
      exact absurd (List.cons.inj heq).1 hhash
    · simp only [false_iff, not_exists, not_and, List.cons.injEq]
      rintro _ ⟨-, rfl⟩ hlen
      simp only [List.length_cons] at hlength
      omega
    · simp only [List.all_eq_true, isHexDigit_eq_isxdigit] at hall
      simp only [List.length_cons, not_and_or, not_not] at hlength hhash
      refine iff_of_true rfl ⟨digits, by rw [hhash], by omega, hall⟩
    · simp only [List.all_eq_true, isHexDigit_eq_isxdigit, not_forall] at hall
      obtain ⟨d, hd, hbad⟩ := hall
      simp only [false_iff, not_exists, not_and, List.cons.injEq]
      rintro _ ⟨-, rfl⟩ - hdigits
      exact hbad (hdigits d hd)

/-! ### The libass path -/

/-- `hex_val` of `render_ass.c`: the value of a hexadecimal digit, `-1` for any other
character. -/
def hexVal (c : Char) : ℤ :=
  if '0' ≤ c && c ≤ '9' then c.toNat - '0'.toNat
  else if 'a' ≤ c && c ≤ 'f' then 10 + (c.toNat - 'a'.toNat)
  else if 'A' ≤ c && c ≤ 'F' then 10 + (c.toNat - 'A'.toNat)
  else -1

/-- `parse_hex_byte(s, &out)`: the byte of the first two characters, `hi << 4 | lo`. A string
shorter than two reads its terminating NUL, which is no digit. -/
def parseHexByte (s : List Char) : Option ℕ :=
  match s with
  | c₀ :: c₁ :: _ =>
    let hi := hexVal c₀
    let lo := hexVal c₁
    if hi < 0 ∨ lo < 0 then none else some (hi.toNat <<< 4 ||| lo.toNat)
  | _ => none

/-- `%02X`: upper-case hexadecimal digits, at least two. -/
def printfHex02 (n : ℕ) : List Char :=
  let digits := (Nat.toDigits 16 n).map Char.toUpper
  List.replicate (2 - digits.length) '0' ++ digits

/-- `snprintf(out, outsz, "&H%02X%02X%02X%02X", inv_a, b, g, r)`. -/
def formatAssColor (invA b g r : ℕ) : List Char :=
  "&H".toList ++ printfHex02 invA ++ printfHex02 b ++ printfHex02 g ++ printfHex02 r

/-- The text `render_ass_hex_to_ass_color` writes for a string it cannot read: opaque white. -/
def assFallback : List Char :=
  "&H00FFFFFF".toList

/-- The ASS colour of red, green, blue and alpha: alpha becomes transparency. -/
def assColorOf (r g b a : ℕ) : List Char :=
  formatAssColor (0xFF - a % 256) (b % 256) (g % 256) (r % 256)

/-- `render_ass_hex_to_ass_color(hex, out, outsz)`, with `NULL` as `none`. -/
def renderAssHexToAssColor : Option (List Char) → List Char
  | some ('#' :: digits) =>
    if digits.length + 1 = 7 then
      match parseHexByte digits, parseHexByte (digits.drop 2), parseHexByte (digits.drop 4) with
      | some vr, some vg, some vb => assColorOf vr vg vb 0x00
      | _, _, _ => assFallback
    else if digits.length + 1 = 9 then
      match parseHexByte digits, parseHexByte (digits.drop 2), parseHexByte (digits.drop 4),
          parseHexByte (digits.drop 6) with
      | some va, some vr, some vg, some vb => assColorOf vr vg vb va
      | _, _, _, _ => assFallback
    else assFallback
  | _ => assFallback

/-! ### The Pango path -/

/-- The channels `parse_hex_color` reads, before each is divided by `255.0`. -/
structure HexChannels where
  r : ℕ
  g : ℕ
  b : ℕ
  a : ℕ
  deriving DecidableEq, Repr

/-- White, opaque: what `parse_hex_color` falls back to. -/
def HexChannels.white : HexChannels :=
  ⟨255, 255, 255, 255⟩

/-- `parse_hex_color(hex, &r, &g, &b, &a)`, with `NULL` as `none`. -/
def parseHexColor : Option (List Char) → HexChannels
  | some ('#' :: digits) =>
    if digits.length + 1 = 7 then
      match sscanf digits "%02x%02x%02x".toList with
      | [rr, gg, bb] => ⟨rr.toNat, gg.toNat, bb.toNat, 255⟩
      | _ => .white
    else if digits.length + 1 = 9 then
      match sscanf digits "%02x%02x%02x%02x".toList with
      | [aa, rr, gg, bb] => ⟨rr.toNat, gg.toNat, bb.toNat, aa.toNat⟩
      | _ => .white
    else .white
  | _ => .white

/-! ### The two decoders on a valid colour -/

/-- The bytes of a run of hexadecimal digit pairs. -/
def hexPairs : List Char → List ℕ
  | c₀ :: c₁ :: rest => (16 * xdigitValue c₀ + xdigitValue c₁) :: hexPairs rest
  | _ => []

theorem hexPairs_drop (digits : List Char) :
    ∀ k, hexPairs (digits.drop (2 * k)) = (hexPairs digits).drop k := by
  match digits with
  | [] => simp [hexPairs]
  | [_] =>
    intro k
    cases k with
    | zero => rfl
    | succ k => rw [List.drop_eq_nil_of_le (by simp; omega)]; rfl
  | c₀ :: c₁ :: rest =>
    intro k
    cases k with
    | zero => rfl
    | succ k =>
      rw [show 2 * (k + 1) = 2 * k + 1 + 1 by omega, List.drop_succ_cons, List.drop_succ_cons,
        hexPairs_drop rest k, hexPairs, List.drop_succ_cons]

theorem length_hexPairs (digits : List Char) : (hexPairs digits).length = digits.length / 2 := by
  match digits with
  | [] => rfl
  | [_] => simp [hexPairs]
  | c₀ :: c₁ :: rest =>
    rw [hexPairs, List.length_cons, length_hexPairs rest, List.length_cons, List.length_cons]
    omega

theorem lt_of_mem_hexPairs {digits : List Char} (hhex : ∀ c ∈ digits, isxdigit c = true) :
    ∀ p ∈ hexPairs digits, p < 256 := by
  match digits with
  | [] => simp [hexPairs]
  | [_] => simp [hexPairs]
  | c₀ :: c₁ :: rest =>
    intro p hp
    rcases List.mem_cons.mp hp with rfl | hp
    · have h₀ := xdigitValue_lt (hhex c₀ (by simp))
      have h₁ := xdigitValue_lt (hhex c₁ (by simp))
      omega
    · exact lt_of_mem_hexPairs (fun c hc ↦ hhex c (by simp [hc])) p hp

theorem hexVal_of_isxdigit {c : Char} (h : isxdigit c = true) :
    hexVal c = (xdigitValue c : ℤ) := by
  have hrange := (isxdigit_iff c).mp h
  unfold hexVal xdigitValue digitValue
  simp only [isdigit, Bool.and_eq_true, decide_eq_true_eq, char_le_iff]
  split_ifs <;> simp_all <;> omega

theorem shiftLeft_four_or {hi lo : ℕ} (hhi : hi < 16) (hlo : lo < 16) :
    hi <<< 4 ||| lo = 16 * hi + lo := by
  have hall : ∀ a < 16, ∀ b < 16, a <<< 4 ||| b = 16 * a + b := by decide
  exact hall hi hhi lo hlo

/-- `parse_hex_byte` on hexadecimal digits reads the first pair. -/
theorem parseHexByte_eq_head? {digits : List Char} (hhex : ∀ c ∈ digits, isxdigit c = true) :
    parseHexByte digits = (hexPairs digits).head? := by
  match digits with
  | [] => rfl
  | [_] => rfl
  | c₀ :: c₁ :: rest =>
    have h₀ := hhex c₀ (by simp)
    have h₁ := hhex c₁ (by simp)
    simp only [parseHexByte, hexVal_of_isxdigit h₀, hexVal_of_isxdigit h₁, hexPairs,
      List.head?_cons]
    rw [if_neg (by omega), Int.toNat_natCast, Int.toNat_natCast,
      shiftLeft_four_or (xdigitValue_lt h₀) (xdigitValue_lt h₁)]

/-- `parse_hex_byte` at offset `2 k` reads pair `k`. -/
theorem parseHexByte_drop {digits : List Char} (hhex : ∀ c ∈ digits, isxdigit c = true)
    (k : ℕ) : parseHexByte (digits.drop (2 * k)) = (hexPairs digits)[k]? := by
  rw [parseHexByte_eq_head? (fun c hc ↦ hhex c (List.mem_of_mem_drop hc)), hexPairs_drop,
    List.head?_drop]

/-- `sscanf` with `n` conversions `%02x` on `2 n` hexadecimal digits reads every pair. -/
theorem scanf_hex_pairs :
    ∀ (n : ℕ) {digits : List Char}, (∀ c ∈ digits, isxdigit c = true) →
      digits.length = 2 * n →
      scanf (List.replicate n (.hex 2)) digits = (hexPairs digits).map (↑)
  | 0, digits, _, hlen => by
    have hnil : digits = [] := List.length_eq_zero_iff.mp hlen
    subst hnil
    rfl
  | n + 1, [], _, hlen => by simp at hlen
  | n + 1, [_], _, hlen => by rw [List.length_singleton] at hlen; omega
  | n + 1, c₀ :: c₁ :: rest, hhex, hlen => by
    have h₀ := hhex c₀ (by simp)
    have h₁ := hhex c₁ (by simp)
    have htail : scanf (List.replicate n (.hex 2)) rest = (hexPairs rest).map (↑) :=
      scanf_hex_pairs n (fun c hc ↦ hhex c (by simp [hc]))
        (by simp only [List.length_cons] at hlen; omega)
    simp only [List.replicate_succ, scanf, scanHex_two rest h₀ h₁, htail, hexPairs,
      List.map_cons]

theorem parseFormat_hex_three : parseFormat "%02x%02x%02x".toList = List.replicate 3 (.hex 2) := by
  decide

theorem parseFormat_hex_four :
    parseFormat "%02x%02x%02x%02x".toList = List.replicate 4 (.hex 2) := by
  decide

/-! ### Bytes printed with `%02X` -/

/-- `%02X` writes a byte as two hexadecimal digits that read back as the byte. -/
theorem printfHex02_of_lt {x : ℕ} (hx : x < 256) :
    (printfHex02 x).length = 2 ∧ (∀ c ∈ printfHex02 x, isxdigit c = true) ∧
      hexPairs (printfHex02 x) = [x] := by
  have htable : ∀ y < 256, (printfHex02 y).length = 2 ∧ (printfHex02 y).all isxdigit ∧
      hexPairs (printfHex02 y) = [y] := by
    decide +kernel
  obtain ⟨hlen, hdigits, hpairs⟩ := htable x hx
  exact ⟨hlen, List.all_eq_true.mp hdigits, hpairs⟩

/-- Two bytes print alike only if they are equal. -/
theorem printfHex02_inj {x y : ℕ} (hx : x < 256) (hy : y < 256)
    (h : printfHex02 x = printfHex02 y) : x = y := by
  have hread := (printfHex02_of_lt hx).2.2
  rw [h, (printfHex02_of_lt hy).2.2, List.cons.injEq] at hread
  exact hread.1.symm

/-- A `%02x` conversion reads back the two digits `%02X` printed. -/
theorem scanf_printfHex02 {x : ℕ} (hx : x < 256) (fmt : List ScanDirective) (s : List Char) :
    scanf (.hex 2 :: fmt) (printfHex02 x ++ s) = (x : ℤ) :: scanf fmt s := by
  obtain ⟨hlen, hdigits, hpairs⟩ := printfHex02_of_lt hx
  obtain ⟨c₁, c₂, hprint⟩ := List.length_eq_two.mp hlen
  rw [hprint] at hdigits hpairs
  have hvalue : 16 * xdigitValue c₁ + xdigitValue c₂ = x := by
    simpa [hexPairs] using hpairs
  rw [hprint, List.cons_append, List.cons_append, List.nil_append, scanf,
    scanHex_two s (hdigits c₁ (by simp)) (hdigits c₂ (by simp)), hvalue]

/-! ### The two decoders on the digit pairs of a colour -/

section Pairs

variable {digits : List Char} {a r g b : ℕ}

/-- `render_ass_hex_to_ass_color` on `#RRGGBB`: the alpha byte `FF`, then blue, green, red. -/
theorem renderAssHexToAssColor_six (hhex : ∀ c ∈ digits, isxdigit c = true)
    (hlen : digits.length = 6) (hpairs : hexPairs digits = [r, g, b]) :
    renderAssHexToAssColor (some ('#' :: digits)) = formatAssColor 0xFF b g r := by
  have hlt := lt_of_mem_hexPairs hhex
  have hr := hlt r (by simp [hpairs])
  have hg := hlt g (by simp [hpairs])
  have hb := hlt b (by simp [hpairs])
  have h₀ : parseHexByte digits = (hexPairs digits)[0]? := parseHexByte_drop hhex 0
  have h₂ : parseHexByte (digits.drop 2) = (hexPairs digits)[1]? := parseHexByte_drop hhex 1
  have h₄ : parseHexByte (digits.drop 4) = (hexPairs digits)[2]? := parseHexByte_drop hhex 2
  rw [hpairs] at h₀ h₂ h₄
  simp only [renderAssHexToAssColor, hlen, h₀, h₂, h₄, assColorOf,
    List.getElem?_cons_zero, List.getElem?_cons_succ, Nat.mod_eq_of_lt hr, Nat.mod_eq_of_lt hg,
    Nat.mod_eq_of_lt hb, Nat.reduceAdd, ↓reduceIte, Nat.zero_mod, Nat.sub_zero]

/-- `parse_hex_color` on `#RRGGBB`: the three pairs, opaque. -/
theorem parseHexColor_six (hhex : ∀ c ∈ digits, isxdigit c = true) (hlen : digits.length = 6)
    (hpairs : hexPairs digits = [r, g, b]) :
    parseHexColor (some ('#' :: digits)) = ⟨r, g, b, 255⟩ := by
  have hscan := scanf_hex_pairs 3 hhex (by rw [hlen])
  rw [hpairs] at hscan
  simp only [parseHexColor, hlen, sscanf, parseFormat_hex_three, hscan, Nat.reduceAdd, ↓reduceIte,
    List.map_cons, List.map_nil, Int.toNat_natCast]

/-- `render_ass_hex_to_ass_color` on `#AARRGGBB`: `0xFF` minus the alpha, then blue, green,
red. -/
theorem renderAssHexToAssColor_eight (hhex : ∀ c ∈ digits, isxdigit c = true)
    (hlen : digits.length = 8) (hpairs : hexPairs digits = [a, r, g, b]) :
    renderAssHexToAssColor (some ('#' :: digits)) = formatAssColor (0xFF - a) b g r := by
  have hlt := lt_of_mem_hexPairs hhex
  have ha := hlt a (by simp [hpairs])
  have hr := hlt r (by simp [hpairs])
  have hg := hlt g (by simp [hpairs])
  have hb := hlt b (by simp [hpairs])
  have h₀ : parseHexByte digits = (hexPairs digits)[0]? := parseHexByte_drop hhex 0
  have h₂ : parseHexByte (digits.drop 2) = (hexPairs digits)[1]? := parseHexByte_drop hhex 1
  have h₄ : parseHexByte (digits.drop 4) = (hexPairs digits)[2]? := parseHexByte_drop hhex 2
  have h₆ : parseHexByte (digits.drop 6) = (hexPairs digits)[3]? := parseHexByte_drop hhex 3
  rw [hpairs] at h₀ h₂ h₄ h₆
  simp only [renderAssHexToAssColor, hlen, h₀, h₂, h₄, h₆, assColorOf,
    List.getElem?_cons_zero, List.getElem?_cons_succ, Nat.mod_eq_of_lt ha, Nat.mod_eq_of_lt hr,
    Nat.mod_eq_of_lt hg, Nat.mod_eq_of_lt hb, Nat.reduceAdd, Nat.reduceEqDiff, ↓reduceIte]

/-- `parse_hex_color` on `#AARRGGBB`: the four pairs, alpha first. -/
theorem parseHexColor_eight (hhex : ∀ c ∈ digits, isxdigit c = true) (hlen : digits.length = 8)
    (hpairs : hexPairs digits = [a, r, g, b]) :
    parseHexColor (some ('#' :: digits)) = ⟨r, g, b, a⟩ := by
  have hscan := scanf_hex_pairs 4 hhex (by rw [hlen])
  rw [hpairs] at hscan
  simp only [parseHexColor, hlen, sscanf, parseFormat_hex_four, hscan, Nat.reduceAdd,
    Nat.reduceEqDiff, ↓reduceIte, List.map_cons, List.map_nil, Int.toNat_natCast]

end Pairs

/-- The two decoders on every colour `validate_color` accepts: the ASS colour holds the blue,
green and red `parse_hex_color` reads, and as alpha byte `0xFF` minus its alpha for
`#AARRGGBB`, but `0xFF` (transparent) for `#RRGGBB`, which `parse_hex_color` reads as
opaque. -/
theorem renderAssHexToAssColor_of_validateColor {colorStr : List Char}
    (hvalid : validateColor colorStr = .ok ()) :
    renderAssHexToAssColor (some colorStr) =
        formatAssColor
          (if colorStr.length = 9 then 0xFF - (parseHexColor (some colorStr)).a else 0xFF)
          (parseHexColor (some colorStr)).b (parseHexColor (some colorStr)).g
          (parseHexColor (some colorStr)).r ∧
      (colorStr.length = 7 → (parseHexColor (some colorStr)).a = 255) := by
  obtain ⟨digits, rfl, hlen, hhex⟩ := validateColor_eq_ok.mp hvalid
  rcases hlen with hlen | hlen
  · obtain ⟨r, g, b, hpairs⟩ := List.length_eq_three.mp
      ((length_hexPairs digits).trans (by rw [hlen]))
    rw [renderAssHexToAssColor_six hhex hlen hpairs, parseHexColor_six hhex hlen hpairs]
    simp [hlen]
  · obtain ⟨a, r, g, b, hpairs⟩ := List.length_eq_four.mp
      ((length_hexPairs digits).trans (by rw [hlen]))
    rw [renderAssHexToAssColor_eight hhex hlen hpairs, parseHexColor_eight hhex hlen hpairs]
    simp [hlen]

/-- `#112233`, the colour of the repository's test: the ASS colour has alpha byte `FF`, fully
transparent, while `parse_hex_color` reads alpha `255`, opaque. -/
theorem renderAssHexToAssColor_of_validateColor_sixDigit :
    validateColor "#112233".toList = .ok () ∧
      (renderAssHexToAssColor (some "#112233".toList) =
          formatAssColor
            (if "#112233".toList.length = 9 then
              0xFF - (parseHexColor (some "#112233".toList)).a else 0xFF)
            (parseHexColor (some "#112233".toList)).b
            (parseHexColor (some "#112233".toList)).g
            (parseHexColor (some "#112233".toList)).r ∧
        ("#112233".toList.length = 7 → (parseHexColor (some "#112233".toList)).a = 255)) :=
  ⟨by decide, renderAssHexToAssColor_of_validateColor (by decide)⟩

example : renderAssHexToAssColor (some "#112233".toList) = "&HFF332211".toList ∧
    parseHexColor (some "#112233".toList) = ⟨0x11, 0x22, 0x33, 255⟩ :=
  ⟨by decide, by decide⟩

example : renderAssHexToAssColor (some "#80112233".toList) = "&H7F332211".toList := by decide

end Srt2Dvbsub.Render