/-
The order of texts.

Texts are compared by the code points of their characters.  Their bytes in UTF-8 are compared in
the same way: a greater code point takes more bytes, of which the first one tells how many there
are, or as many bytes with greater digits to the base of 64.

* **`utf8EncodeChar_cases`**: the bytes of a character;
* **`utf8EncodeChar_append_lt`**: characters compare as their bytes, whatever follows them;
* **`lt_iff_utf8_lt`**: texts compare as their bytes.
-/
import Mathlib.Order.Basic

namespace SpokenDate

open String

/-- The bytes of a text in UTF-8. -/
def utf8 (text : String) : List UInt8 := text.toUTF8.data.toList

theorem utf8_eq_flatMap (text : String) : utf8 text = text.toList.flatMap utf8EncodeChar := by
  rw [utf8, String.toUTF8_eq_toByteArray, ← String.utf8Encode_toList, List.utf8Encode,
    List.toList_data_toByteArray]

/-! ### Characters -/

/-- Bytes are compared as the numbers that they stand for. -/
theorem ofNat_cons_lt_iff {a b : Nat} (ha : a < 256) (hb : b < 256) {x y : List UInt8} :
    UInt8.ofNat a :: x < UInt8.ofNat b :: y ↔ a < b ∨ a = b ∧ x < y := by
  rw [List.cons_lt_cons_iff, UInt8.lt_iff_toNat_lt, ← UInt8.toNat_inj, UInt8.toNat_ofNat_of_lt' ha,
    UInt8.toNat_ofNat_of_lt' hb]

/-- A character takes one to four bytes. -/
theorem utf8EncodeChar_cases (c : Char) :
    (c.toNat < 0x80 ∧ utf8EncodeChar c = [.ofNat c.toNat]) ∨
    ((0x80 ≤ c.toNat ∧ c.toNat < 0x800) ∧ utf8EncodeChar c =
      [.ofNat (c.toNat / 64 + 0xc0), .ofNat (c.toNat % 64 + 0x80)]) ∨
    ((0x800 ≤ c.toNat ∧ c.toNat < 0x10000) ∧ utf8EncodeChar c =
      [.ofNat (c.toNat / 4096 + 0xe0), .ofNat (c.toNat / 64 % 64 + 0x80),
        .ofNat (c.toNat % 64 + 0x80)]) ∨
    ((0x10000 ≤ c.toNat ∧ c.toNat < 0x110000) ∧ utf8EncodeChar c =
      [.ofNat (c.toNat / 262144 + 0xf0), .ofNat (c.toNat / 4096 % 64 + 0x80),
        .ofNat (c.toNat / 64 % 64 + 0x80), .ofNat (c.toNat % 64 + 0x80)]) := by
  have hmax : c.toNat < 0x110000 := by
    have hvalid := c.valid
    simp only [UInt32.isValidChar, Nat.isValidChar] at hvalid
    show c.val.toNat < _
    omega
  simp only [utf8EncodeChar, show c.val.toNat = c.toNat from rfl]
  generalize c.toNat = n at hmax ⊢
  by_cases h₁ : n ≤ 0x7f
  · exact .inl ⟨by omega, if_pos h₁⟩
  by_cases h₂ : n ≤ 0x7ff
  · refine .inr (.inl ⟨by omega, ?_⟩)
    rw [if_neg h₁, if_pos h₂, Nat.mod_eq_of_lt (a := n / 64) (by omega)]
  by_cases h₃ : n ≤ 0xffff
  · refine .inr (.inr (.inl ⟨by omega, ?_⟩))
    rw [if_neg h₁, if_neg h₂, if_pos h₃, Nat.mod_eq_of_lt (a := n / 4096) (by omega)]
  · refine .inr (.inr (.inr ⟨by omega, ?_⟩))
    rw [if_neg h₁, if_neg h₂, if_neg h₃, Nat.mod_eq_of_lt (a := n / 262144) (by omega)]

/-- **Characters compare as their bytes**, whatever follows them. -/
theorem utf8EncodeChar_append_lt {c d : Char} (h : c < d) (x y : List UInt8) :
    utf8EncodeChar c ++ x < utf8EncodeChar d ++ y := by
  have hlt : c.toNat < d.toNat := h
  rcases utf8EncodeChar_cases c with ⟨hc, ec⟩ | ⟨hc, ec⟩ | ⟨hc, ec⟩ | ⟨hc, ec⟩ <;>
    rcases utf8EncodeChar_cases d with ⟨hd, ed⟩ | ⟨hd, ed⟩ | ⟨hd, ed⟩ | ⟨hd, ed⟩ <;>
    simp (disch := omega) only [ec, ed, List.cons_append, List.nil_append, ofNat_cons_lt_iff]
  case inr.inr.inr.inr.inr.inr =>
    -- of two characters with four bytes the first digits that differ decide
    by_cases hfirst : c.toNat / 262144 = d.toNat / 262144
    · refine .inr ⟨by omega, ?_⟩
      by_cases hsecond : c.toNat / 4096 = d.toNat / 4096
      · exact .inr (by omega)
      · exact .inl (by omega)
    · exact .inl (by omega)
  all_goals omega

/-! ### Texts -/

private theorem flatMap_utf8EncodeChar_lt {first second : List Char} (h : first < second) :
    first.flatMap utf8EncodeChar < second.flatMap utf8EncodeChar := by
  induction h with
  | @nil c rest =>
    rw [List.flatMap_nil, List.flatMap_cons]
    cases hc : utf8EncodeChar c with
    | nil => exact absurd hc utf8EncodeChar_ne_nil
    | cons byte bytes => exact List.nil_lt_cons _ _
  | rel h => exact utf8EncodeChar_append_lt h _ _
  | cons _ ih => exact List.append_left_lt ih

/-- **Texts compare as their bytes.** -/
theorem lt_iff_utf8_lt {s t : String} : s < t ↔ utf8 s < utf8 t := by
  have hlt : ∀ {s t : String}, s < t → utf8 s < utf8 t := by
    intro s t h
    rw [utf8_eq_flatMap, utf8_eq_flatMap]
    exact flatMap_utf8EncodeChar_lt h
  constructor
  · exact hlt
  · intro h
    -- otherwise the texts are equal, or compare the other way round
    refine Decidable.byContradiction fun hge => ?_
    by_cases heq : s = t
    · exact List.lt_irrefl _ (heq ▸ h)
    · have hgt : t < s := Decidable.byContradiction fun hle =>
        heq (String.le_antisymm (String.not_lt.1 hle) (String.not_lt.1 hge))
      exact List.lt_asymm h (hlt hgt)

end SpokenDate
