import Mathlib

/-!
# UTF-8 byte classes

A C string is a list of bytes, each held as the character whose code is the byte. The high bits
of a byte, read through the masks of the UTF-8 encoding, say what it is: a one-byte sequence
(`0xxxxxxx`), the lead byte of a sequence of two, three or four bytes (`110xxxxx`, `1110xxxx`,
`11110xxx`), or a continuation byte (`10xxxxxx`). A byte of `0xF8..0xFF` is none of these.

* `announcedLen`: the length a byte announces, one for a byte that starts no sequence.
* `StructUtf8`: the structure of UTF-8 that such masks can check, one constructor per sequence
  shape: every lead byte followed by the continuation bytes it announces, and no continuation
  byte or `0xF8..0xFF` byte on its own. `isStructUtf8` decides it (`isStructUtf8_iff`).

Each class is a mask test on the code, so the classes exclude each other by the arithmetic of the
masks alone (`land_land_of_eq`), whatever the code.
-/

set_option autoImplicit false
set_option relaxedAutoImplicit false

namespace Lib

/-! ### The classes -/

/-- `(b & 0x80) == 0`: a sequence of one byte. -/
def asciiByte (c : Char) : Bool := c.toNat &&& 0x80 == 0

/-- `(b & 0xE0) == 0xC0`: the lead byte of a sequence of two. -/
def lead2 (c : Char) : Bool := c.toNat &&& 0xE0 == 0xC0

/-- `(b & 0xF0) == 0xE0`: the lead byte of a sequence of three. -/
def lead3 (c : Char) : Bool := c.toNat &&& 0xF0 == 0xE0

/-- `(b & 0xF8) == 0xF0`: the lead byte of a sequence of four. -/
def lead4 (c : Char) : Bool := c.toNat &&& 0xF8 == 0xF0

/-- `(b & 0xC0) == 0x80`: a continuation byte. -/
def contByte (c : Char) : Bool := c.toNat &&& 0xC0 == 0x80

/-- The length of the sequence a byte announces by its high bits; a byte that starts no sequence
counts one. -/
def announcedLen (c : Char) : ℕ :=
  if asciiByte c then 1
  else if lead2 c then 2
  else if lead3 c then 3
  else if lead4 c then 4
  else 1

/-- The first `n` bytes of `rest` are there and are continuation bytes. -/
def contPrefix (n : ℕ) (rest : List Char) : Bool :=
  decide (n ≤ rest.length) && (rest.take n).all contByte

@[simp] theorem contPrefix_zero (rest : List Char) : contPrefix 0 rest = true := by
  simp [contPrefix]

@[simp] theorem contPrefix_succ_nil (n : ℕ) : contPrefix (n + 1) [] = false := by
  simp [contPrefix]

@[simp] theorem contPrefix_succ_cons (n : ℕ) (c : Char) (rest : List Char) :
    contPrefix (n + 1) (c :: rest) = (contByte c && contPrefix n rest) := by
  simp only [contPrefix, List.length_cons, Nat.add_le_add_iff_right, List.take_succ_cons,
    List.all_cons]
  cases contByte c <;> simp

/-! ### The classes exclude each other -/

/-- A wider mask fixes what a narrower one sees. -/
theorem land_land_of_eq {n a v : ℕ} (h : n &&& a = v) (b : ℕ) : n &&& (a &&& b) = v &&& b := by
  rw [← Nat.land_assoc, h]

section Exclusive

variable {c : Char}

theorem asciiByte_eq_false_of_lead2 (h : lead2 c = true) : asciiByte c = false := by
  have hmask := land_land_of_eq (beq_iff_eq.mp h) 0x80
  simp only [asciiByte, beq_eq_false_iff_ne]
  rw [show (0x80 : ℕ) = 0xE0 &&& 0x80 by decide, hmask]
  decide

theorem asciiByte_eq_false_of_lead3 (h : lead3 c = true) : asciiByte c = false := by
  have hmask := land_land_of_eq (beq_iff_eq.mp h) 0x80
  simp only [asciiByte, beq_eq_false_iff_ne]
  rw [show (0x80 : ℕ) = 0xF0 &&& 0x80 by decide, hmask]
  decide

theorem lead2_eq_false_of_lead3 (h : lead3 c = true) : lead2 c = false := by
  have hmask := land_land_of_eq (beq_iff_eq.mp h) 0xE0
  simp only [lead2, beq_eq_false_iff_ne]
  rw [show (0xE0 : ℕ) = 0xF0 &&& 0xE0 by decide, hmask]
  decide

theorem asciiByte_eq_false_of_lead4 (h : lead4 c = true) : asciiByte c = false := by
  have hmask := land_land_of_eq (beq_iff_eq.mp h) 0x80
  simp only [asciiByte, beq_eq_false_iff_ne]
  rw [show (0x80 : ℕ) = 0xF8 &&& 0x80 by decide, hmask]
  decide

theorem lead2_eq_false_of_lead4 (h : lead4 c = true) : lead2 c = false := by
  have hmask := land_land_of_eq (beq_iff_eq.mp h) 0xE0
  simp only [lead2, beq_eq_false_iff_ne]
  rw [show (0xE0 : ℕ) = 0xF8 &&& 0xE0 by decide, hmask]
  decide

theorem lead3_eq_false_of_lead4 (h : lead4 c = true) : lead3 c = false := by
  have hmask := land_land_of_eq (beq_iff_eq.mp h) 0xF0
  simp only [lead3, beq_eq_false_iff_ne]
  rw [show (0xF0 : ℕ) = 0xF8 &&& 0xF0 by decide, hmask]
  decide

/-- A continuation byte starts no sequence: every lead mask sees it differently. -/
theorem announcedLen_of_contByte (h : contByte c = true) : announcedLen c = 1 := by
  have hcont := beq_iff_eq.mp h
  have hascii : asciiByte c = false := by
    have hbit := land_land_of_eq hcont 0x80
    rw [show (0xC0 : ℕ) &&& 0x80 = 0x80 by decide, show (0x80 : ℕ) &&& 0x80 = 0x80 by decide]
      at hbit
    simp only [asciiByte, beq_eq_false_iff_ne, hbit]
    decide
  have hlead : ∀ {m v : ℕ}, m &&& 0xC0 = 0xC0 → v &&& 0xC0 = 0xC0 → c.toNat &&& m ≠ v := by
    intro m v hm hv heq
    have := land_land_of_eq heq 0xC0
    rw [hm, hv, hcont] at this
    exact absurd this (by decide)
  have h2 : lead2 c = false := beq_eq_false_iff_ne.mpr (hlead (by decide) (by decide))
  have h3 : lead3 c = false := beq_eq_false_iff_ne.mpr (hlead (by decide) (by decide))
  have h4 : lead4 c = false := beq_eq_false_iff_ne.mpr (hlead (by decide) (by decide))
  simp [announcedLen, hascii, h2, h3, h4]

@[simp] theorem announcedLen_of_asciiByte (h : asciiByte c = true) : announcedLen c = 1 := by
  simp [announcedLen, h]

@[simp] theorem announcedLen_of_lead2 (h : lead2 c = true) : announcedLen c = 2 := by
  simp [announcedLen, h, asciiByte_eq_false_of_lead2 h]

@[simp] theorem announcedLen_of_lead3 (h : lead3 c = true) : announcedLen c = 3 := by
  simp [announcedLen, h, asciiByte_eq_false_of_lead3 h, lead2_eq_false_of_lead3 h]

@[simp] theorem announcedLen_of_lead4 (h : lead4 c = true) : announcedLen c = 4 := by
  simp [announcedLen, h, asciiByte_eq_false_of_lead4 h, lead2_eq_false_of_lead4 h,
    lead3_eq_false_of_lead4 h]

theorem one_le_announcedLen (c : Char) : 1 ≤ announcedLen c := by
  unfold announcedLen
  split_ifs <;> omega

end Exclusive

/-! ### Structural validity -/

/-- Structurally valid UTF-8: a run of sequences, each a one-byte sequence or a lead byte
followed by exactly the continuation bytes it announces. -/
inductive StructUtf8 : List Char → Prop
  | nil : StructUtf8 []
  | one {c : Char} {rest : List Char} : asciiByte c = true → StructUtf8 rest →
      StructUtf8 (c :: rest)
  | two {c c₁ : Char} {rest : List Char} : lead2 c = true → contByte c₁ = true →
      StructUtf8 rest → StructUtf8 (c :: c₁ :: rest)
  | three {c c₁ c₂ : Char} {rest : List Char} : lead3 c = true → contByte c₁ = true →
      contByte c₂ = true → StructUtf8 rest → StructUtf8 (c :: c₁ :: c₂ :: rest)
  | four {c c₁ c₂ c₃ : Char} {rest : List Char} : lead4 c = true → contByte c₁ = true →
      contByte c₂ = true → contByte c₃ = true → StructUtf8 rest →
      StructUtf8 (c :: c₁ :: c₂ :: c₃ :: rest)

/-- The check of `StructUtf8`, sequence by sequence. -/
def isStructUtf8 : List Char → Bool
  | [] => true
  | c :: rest =>
    if asciiByte c then isStructUtf8 rest
    else if lead2 c then
      match rest with
      | c₁ :: rest => contByte c₁ && isStructUtf8 rest
      | [] => false
    else if lead3 c then
      match rest with
      | c₁ :: c₂ :: rest => contByte c₁ && contByte c₂ && isStructUtf8 rest
      | _ => false
    else if lead4 c then
      match rest with
      | c₁ :: c₂ :: c₃ :: rest => contByte c₁ && contByte c₂ && contByte c₃ && isStructUtf8 rest
      | _ => false
    else false

/-- Each sequence of a structurally valid text passes the check. -/
theorem isStructUtf8_of_structUtf8 {s : List Char} (h : StructUtf8 s) : isStructUtf8 s = true := by
  induction h with
  | nil => rfl
  | one h1 _ ih =>
    rw [isStructUtf8.eq_def]
    simp [h1, ih]
  | two h2 hc₁ _ ih => simp [isStructUtf8, asciiByte_eq_false_of_lead2 h2, h2, hc₁, ih]
  | three h3 hc₁ hc₂ _ ih =>
    simp [isStructUtf8, asciiByte_eq_false_of_lead3 h3, lead2_eq_false_of_lead3 h3, h3, hc₁, hc₂,
      ih]
  | four h4 hc₁ hc₂ hc₃ _ ih =>
    simp [isStructUtf8, asciiByte_eq_false_of_lead4 h4, lead2_eq_false_of_lead4 h4,
      lead3_eq_false_of_lead4 h4, h4, hc₁, hc₂, hc₃, ih]

/-- A text that passes the check is structurally valid: the recursion follows the check's own,
one sequence at a time. -/
theorem structUtf8_of_isStructUtf8 : ∀ {s : List Char}, isStructUtf8 s = true → StructUtf8 s
  | [], _ => .nil
  | c :: rest, h => by
    unfold isStructUtf8 at h
    split_ifs at h with hascii h2 h3 h4
    · exact .one hascii (structUtf8_of_isStructUtf8 h)
    · match rest, h with
      | c₁ :: rest', h =>
        simp only [Bool.and_eq_true] at h
        exact .two h2 h.1 (structUtf8_of_isStructUtf8 h.2)
    · match rest, h with
      | c₁ :: c₂ :: rest', h =>
        simp only [Bool.and_eq_true] at h
        exact .three h3 h.1.1 h.1.2 (structUtf8_of_isStructUtf8 h.2)
    · match rest, h with
      | c₁ :: c₂ :: c₃ :: rest', h =>
        simp only [Bool.and_eq_true] at h
        exact .four h4 h.1.1.1 h.1.1.2 h.1.2 (structUtf8_of_isStructUtf8 h.2)

theorem isStructUtf8_iff (s : List Char) : isStructUtf8 s = true ↔ StructUtf8 s :=
  ⟨structUtf8_of_isStructUtf8, isStructUtf8_of_structUtf8⟩

/-- Sequences one after the other. -/
theorem StructUtf8.append {a b : List Char} (ha : StructUtf8 a) (hb : StructUtf8 b) :
    StructUtf8 (a ++ b) := by
  induction ha with
  | nil => exact hb
  | one h1 _ ih => exact .one h1 ih
  | two h2 hc₁ _ ih => exact .two h2 hc₁ ih
  | three h3 hc₁ hc₂ _ ih => exact .three h3 hc₁ hc₂ ih
  | four h4 hc₁ hc₂ hc₃ _ ih => exact .four h4 hc₁ hc₂ hc₃ ih

instance : DecidablePred StructUtf8 :=
  fun s ↦ decidable_of_iff _ (isStructUtf8_iff s)

end Lib
