/-
Vocabularies: finite lists of words with their meanings.

A text is compared with the words of a vocabulary after its ASCII capitals have been
made small, so the words themselves are written in small letters.

* **`meaning?_congr`**: the case of ASCII letters never matters;
* **`exists_meaning?_iff`**: a text has a meaning exactly when it is one of the words.
-/

namespace SpokenDate

/-- The text with ASCII capitals made small. -/
def lower (text : String) : List Char := text.toList.map Char.toLower

/-- Words in small letters, each with its meaning. -/
abbrev Vocabulary (α : Type) := List (String × α)

namespace Vocabulary

variable {α : Type}

/-- The meaning of a text that is one of the words, in any case of its ASCII letters. -/
def meaning? (words : Vocabulary α) (text : String) : Option α :=
  words.findSome? fun (word, meaning) => if word.toList = lower text then some meaning else none

/-- The case of letters does not matter. -/
theorem meaning?_congr (words : Vocabulary α) {s t : String} (h : lower s = lower t) :
    words.meaning? s = words.meaning? t := by
  simp only [meaning?, h]

theorem exists_meaning?_iff (words : Vocabulary α) {text : String} :
    (∃ meaning, words.meaning? text = some meaning) ↔
      ∃ entry ∈ words, entry.1.toList = lower text := by
  rw [← Option.isSome_iff_exists, meaning?, List.findSome?_isSome_iff]
  constructor
  · rintro ⟨⟨word, meaning⟩, hentry, h⟩
    refine ⟨(word, meaning), hentry, ?_⟩
    dsimp only at h
    split at h
    · rename_i hword
      exact hword
    · cases h
  · rintro ⟨⟨word, meaning⟩, hentry, hword⟩
    refine ⟨(word, meaning), hentry, ?_⟩
    dsimp only
    rw [if_pos hword]
    rfl

end Vocabulary

end SpokenDate
