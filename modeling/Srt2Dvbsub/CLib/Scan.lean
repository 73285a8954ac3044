import Srt2Dvbsub.CLib.Tokenize

/-!
# Number conversions of the C library

The program reads numbers with `strtol`, `atoi` and `sscanf`. This module models the three
on C strings (lists of bytes), with the saturation and truncation of glibc on LP64.

`strtol` returns the value, whether `errno` became `ERANGE`, and the text at `endptr`: it
skips leading whitespace, reads an optional sign and the longest run of decimal digits, and
saturates at `LONG_MIN`/`LONG_MAX`. Without a digit the value is `0` and `endptr` is the
whole string. `atoi` is `(int) strtol(s, NULL, 10)`, the cast truncating to 32 bits
(`toCInt`).

`sscanf` interprets its format string: `parseFormat` turns it into `ScanDirective`s (a
`%d` or `%Nx` conversion, `%NX` reading as `%Nx`, a whitespace directive, or an ordinary
character) and `scanf` runs them against the input, collecting the converted values up to the
first directive that fails. The value `sscanf` returns is the number of values collected. A
`%d` conversion reads like `strtol` and stores the truncated `int`; a `%Nx` conversion reads at
most `N` characters of an optional sign, an optional `0x` prefix and hexadecimal digits, as
glibc does.

`mem_of_strtol_endptr_nil` says which characters a string that `strtol` reads to its end can
hold: whitespace, a sign and digits only.
-/

set_option autoImplicit false
set_option relaxedAutoImplicit false

namespace Srt2Dvbsub.CLib

/-! ### Digits -/

/-- `isdigit` in the C locale. -/
def isdigit (c : Char) : Bool :=
  '0' ≤ c && c ≤ '9'

/-- `isxdigit` in the C locale. -/
def isxdigit (c : Char) : Bool :=
  isdigit c || ('a' ≤ c && c ≤ 'f') || ('A' ≤ c && c ≤ 'F')

/-- The value of a decimal digit. -/
def digitValue (c : Char) : ℕ :=
  c.toNat - '0'.toNat

/-- The value of a hexadecimal digit, `0` for any other character. -/
def xdigitValue (c : Char) : ℕ :=
  if isdigit c then digitValue c
  else if 'a' ≤ c && c ≤ 'f' then c.toNat - 'a'.toNat + 10
  else if 'A' ≤ c && c ≤ 'F' then c.toNat - 'A'.toNat + 10
  else 0

/-- The number a run of decimal digits denotes. -/
def decimalValue (digits : List Char) : ℕ :=
  digits.foldl (fun n d ↦ 10 * n + digitValue d) 0

/-- The number a run of hexadecimal digits denotes. -/
def hexValue (digits : List Char) : ℕ :=
  digits.foldl (fun n d ↦ 16 * n + xdigitValue d) 0

/-! ### `strtol` and `atoi` -/

/-- `LONG_MIN` on LP64. -/
def LONG_MIN : ℤ := -2 ^ 63

/-- `LONG_MAX` on LP64. -/
def LONG_MAX : ℤ := 2 ^ 63 - 1

/-- `INT_MIN`. -/
def INT_MIN : ℤ := -2 ^ 31

/-- `INT_MAX`. -/
def INT_MAX : ℤ := 2 ^ 31 - 1

/-- The conversion of a `long` to `int`: two's complement truncation to 32 bits. -/
def toCInt (v : ℤ) : ℤ :=
  v.bmod (2 ^ 32)

/-- A value in the range of `int` is kept by the conversion. -/
theorem toCInt_of_mem {v : ℤ} (hlow : INT_MIN ≤ v) (hhigh : v ≤ INT_MAX) : toCInt v = v := by
  unfold INT_MIN at hlow
  unfold INT_MAX at hhigh
  exact Int.bmod_eq_of_le (by push_cast; omega) (by push_cast; omega)

/-- An optional sign in front of a number: whether it is `-`, and the text after it. -/
def signOf : List Char → Bool × List Char
  | '-' :: rest => (true, rest)
  | '+' :: rest => (false, rest)
  | rest => (false, rest)

/-- What `strtol(s, &endptr, 10)` gives back. -/
structure StrtolResult where
  value : ℤ
  erange : Bool
  endptr : List Char
  deriving DecidableEq, Repr

/-- `strtol(s, &endptr, 10)`. -/
def strtol (s : List Char) : StrtolResult :=
  let signed := signOf (s.dropWhile isspace)
  let digits := signed.2.takeWhile isdigit
  if digits = [] then ⟨0, false, s⟩
  else
    let exact : ℤ := if signed.1 then -(decimalValue digits : ℤ) else decimalValue digits
    ⟨max LONG_MIN (min LONG_MAX exact), decide (exact < LONG_MIN ∨ LONG_MAX < exact),
      signed.2.dropWhile isdigit⟩

/-- `atoi(s)`, which glibc computes as `(int) strtol(s, NULL, 10)`. -/
def atoi (s : List Char) : ℤ :=
  toCInt (strtol s).value

/-- The sign is dropped from the front of the text, or there is none. -/
theorem signOf_cases (l : List Char) :
    l = (signOf l).2 ∨ l = '-' :: (signOf l).2 ∨ l = '+' :: (signOf l).2 := by
  match l with
  | '-' :: rest => simp [signOf]
  | '+' :: rest => simp [signOf]
  | [] => simp [signOf]
  | c :: rest =>
    by_cases hm : c = '-'
    · subst hm; simp [signOf]
    · by_cases hp : c = '+'
      · subst hp; simp [signOf]
      · left; simp [signOf, hm, hp]

/-- Where `strtol` leaves `endptr`: after the digits, or at the start without one. -/
theorem strtol_endptr (s : List Char) :
    (strtol s).endptr =
      if (signOf (s.dropWhile isspace)).2.takeWhile isdigit = [] then s
      else (signOf (s.dropWhile isspace)).2.dropWhile isdigit := by
  unfold strtol
  dsimp only
  split_ifs <;> rfl

/-- A string that `strtol` reads to its end (`*endptr == '\0'` with a digit read) holds only
whitespace, signs and digits. -/
theorem mem_of_strtol_endptr_nil {s : List Char} (hend : (strtol s).endptr = [])
    (hread : s ≠ []) {c : Char} (hc : c ∈ s) :
    isspace c ∨ c = '-' ∨ c = '+' ∨ isdigit c := by
  rw [strtol_endptr] at hend
  set body := (signOf (s.dropWhile isspace)).2 with hbody
  split_ifs at hend with hdigits
  · exact absurd hend hread
  have hdig : ∀ d ∈ body, isdigit d := by
    intro d hd
    have hall := List.takeWhile_append_dropWhile (p := isdigit) (l := body)
    rw [hend, List.append_nil] at hall
    rw [← hall] at hd
    exact List.mem_takeWhile_imp hd
  rw [← List.takeWhile_append_dropWhile (p := isspace) (l := s)] at hc
  rcases List.mem_append.mp hc with hc | hc
  · exact Or.inl (List.mem_takeWhile_imp hc)
  rcases signOf_cases (s.dropWhile isspace) with h | h | h <;> rw [h, ← hbody] at hc
  · exact Or.inr (Or.inr (Or.inr (hdig c hc)))
  · rcases List.mem_cons.mp hc with rfl | hc
    · simp
    · exact Or.inr (Or.inr (Or.inr (hdig c hc)))
  · rcases List.mem_cons.mp hc with rfl | hc
    · simp
    · exact Or.inr (Or.inr (Or.inr (hdig c hc)))

/-! ### `sscanf` -/

/-- One directive of a `scanf` format. -/
inductive ScanDirective where
  /-- `%d` -/
  | decimal
  /-- `%Nx`, with field width `N` (`0` for none) -/
  | hex (width : ℕ)
  /-- a whitespace character, matching any run of whitespace -/
  | space
  /-- any other character, matching itself -/
  | literal (c : Char)
  deriving DecidableEq, Repr

/-- The directives of a format string, with the width of the conversion being read so far
when the first argument is `some`. `%X` reads as `%x` does; conversions other than `d`, `x` and
`X` end the format. -/
def parseFormatFrom : Option ℕ → List Char → List ScanDirective
  | none, [] => []
  | none, '%' :: rest => parseFormatFrom (some 0) rest
  | none, c :: rest =>
    (if isspace c then ScanDirective.space else ScanDirective.literal c) :: parseFormatFrom none rest
  | some _, [] => []
  | some _, 'd' :: rest => ScanDirective.decimal :: parseFormatFrom none rest
  | some width, 'x' :: rest => ScanDirective.hex width :: parseFormatFrom none rest
  | some width, 'X' :: rest => ScanDirective.hex width :: parseFormatFrom none rest
  | some width, c :: rest =>
    if isdigit c then parseFormatFrom (some (10 * width + digitValue c)) rest else []

/-- The directives of a format string. -/
def parseFormat (fmt : List Char) : List ScanDirective :=
  parseFormatFrom none fmt

/-- A `%d` conversion: whitespace, an optional sign and at least one digit, stored as `int`. -/
def scanDecimal (s : List Char) : Option (ℤ × List Char) :=
  let signed := signOf (s.dropWhile isspace)
  let digits := signed.2.takeWhile isdigit
  if digits = [] then none
  else
    let exact : ℤ := if signed.1 then -(decimalValue digits : ℤ) else decimalValue digits
    some (toCInt (max LONG_MIN (min LONG_MAX exact)), signed.2.dropWhile isdigit)

/-- A `%Nx` conversion as glibc reads it: within `width` characters after the whitespace, an
optional sign, an optional `0x` prefix and hexadecimal digits; a prefix `0` alone is a
number. A width of `0` is no width, which the length of the text stands for. The value is
stored as `unsigned int`. -/
def scanHex (width : ℕ) (s : List Char) : Option (ℕ × List Char) :=
  let width := if width = 0 then s.length + 1 else width
  let s := s.dropWhile isspace
  let (negative, afterSign, left) : Bool × List Char × ℕ :=
    match s with
    | c :: rest => if (c == '-' || c == '+') && 0 < width then (c == '-', rest, width - 1)
      else (false, s, width)
    | [] => (false, [], width)
  let (prefixed, afterPrefix, left) : Bool × List Char × ℕ :=
    match afterSign with
    | '0' :: c :: rest => if 2 ≤ left && (c == 'x' || c == 'X') then (true, rest, left - 2)
      else (false, afterSign, left)
    | _ => (false, afterSign, left)
  let digits := (afterPrefix.takeWhile isxdigit).take left
  if digits = [] && !prefixed then none
  else
    let exact : ℤ := if negative then -(hexValue digits : ℤ) else hexValue digits
    some ((exact % 2 ^ 32).toNat, afterPrefix.drop digits.length)

theorem char_le_iff {a b : Char} : a ≤ b ↔ a.toNat ≤ b.toNat := by
  rw [Char.le_def, UInt32.le_iff_toNat_le]
  rfl

/-- The hexadecimal digits by their code: `0`-`9`, `a`-`f`, `A`-`F`. -/
theorem isxdigit_iff (c : Char) :
    isxdigit c = true ↔ (48 ≤ c.toNat ∧ c.toNat ≤ 57) ∨ (97 ≤ c.toNat ∧ c.toNat ≤ 102) ∨
      (65 ≤ c.toNat ∧ c.toNat ≤ 70) := by
  simp only [isxdigit, isdigit, Bool.or_eq_true, Bool.and_eq_true, decide_eq_true_eq,
    char_le_iff, or_assoc]
  rfl

/-- A hexadecimal digit is no blank, no sign and no `x` of a prefix. -/
theorem isxdigit_not_special {c : Char} (h : isxdigit c = true) :
    isspace c = false ∧ c ≠ '-' ∧ c ≠ '+' ∧ c ≠ 'x' ∧ c ≠ 'X' := by
  rw [isxdigit_iff] at h
  have hne : ∀ d : Char, ¬((48 ≤ d.toNat ∧ d.toNat ≤ 57) ∨ (97 ≤ d.toNat ∧ d.toNat ≤ 102) ∨
      (65 ≤ d.toNat ∧ d.toNat ≤ 70)) → c ≠ d := by
    rintro d hd rfl
    exact hd h
  refine ⟨?_, hne '-' (by decide), hne '+' (by decide), hne 'x' (by decide), hne 'X' (by decide)⟩
  simp only [isspace, Bool.or_eq_false_iff, beq_eq_false_iff_ne]
  exact ⟨⟨⟨⟨⟨hne ' ' (by decide), hne '\t' (by decide)⟩, hne '\n' (by decide)⟩,
    hne '\x0b' (by decide)⟩, hne '\x0c' (by decide)⟩, hne '\r' (by decide)⟩

theorem xdigitValue_lt {c : Char} (h : isxdigit c = true) : xdigitValue c < 16 := by
  have hrange := (isxdigit_iff c).mp h
  unfold xdigitValue digitValue
  simp only [isdigit, Bool.and_eq_true, decide_eq_true_eq, char_le_iff]
  split_ifs <;> simp_all <;> omega

/-- A `%2x` conversion on two hexadecimal digits reads both. -/
theorem scanHex_two {c₁ c₂ : Char} (rest : List Char) (h₁ : isxdigit c₁ = true)
    (h₂ : isxdigit c₂ = true) :
    scanHex 2 (c₁ :: c₂ :: rest) = some (16 * xdigitValue c₁ + xdigitValue c₂, rest) := by
  obtain ⟨hspace, hminus, hplus, -, -⟩ := isxdigit_not_special h₁
  obtain ⟨-, -, -, hx, hX⟩ := isxdigit_not_special h₂
  have hlt₁ := xdigitValue_lt h₁
  have hlt₂ := xdigitValue_lt h₂
  have hdigits : ((c₁ :: c₂ :: rest).takeWhile isxdigit).take 2 = [c₁, c₂] := by
    simp [h₁, h₂]
  have hsign : (c₁ == '-' || c₁ == '+') = false := by
    simp [hminus, hplus]
  unfold scanHex
  simp only [List.dropWhile_cons, hspace]
  split <;> simp_all [hexValue] <;> omega

/-- Run the directives against the input: the values converted before the first failure. -/
def scanf : List ScanDirective → List Char → List ℤ
  | [], _ => []
  | .decimal :: fmt, s =>
    match scanDecimal s with
    | none => []
    | some (v, rest) => v :: scanf fmt rest
  | .hex width :: fmt, s =>
    match scanHex width s with
    | none => []
    | some (v, rest) => (v : ℤ) :: scanf fmt rest
  | .space :: fmt, s => scanf fmt (s.dropWhile isspace)
  | .literal c :: fmt, s =>
    match s with
    | d :: rest => if d = c then scanf fmt rest else []
    | [] => []

/-- `sscanf(s, fmt, ...)`: the values stored in the arguments, in order. The C function
returns their number. -/
def sscanf (s fmt : List Char) : List ℤ :=
  scanf (parseFormat fmt) s

/-- Ordinary characters of the format match the same characters of the input. -/
theorem scanf_literals_append (fmt : List ScanDirective) (s rest : List Char) :
    scanf (s.map .literal ++ fmt) (s ++ rest) = scanf fmt rest := by
  induction s with
  | nil => rfl
  | cons c s ih => simp [scanf, ih]

end Srt2Dvbsub.CLib
