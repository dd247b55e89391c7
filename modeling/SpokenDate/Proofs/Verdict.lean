/-
The verdict on whole phrases.

A chain is judged by its two ends: that it is a chain at all, and what its innermost phrase is.
The shifts in between are never judged, and neither is how many there are.

* **`IsChain`**, **`Passes`**: what is asked of the one end and of the other;
* **`keeps_iff`**: a phrase is kept exactly where both ends are as wanted;
* **`keeps_mono`**: options that allow more keep at least as much;
* **`keeps_congr`**: durations, directions and the limit on nesting do not matter;
* **`keeps_iff_ends`**: all of this for every phrase.
-/
import SpokenDate.Proofs.Chain

namespace SpokenDate.Phrase

variable {options others : Options} {phrase other : Phrase}

/-- The phrase shifts a point or another phrase. -/
def IsChain : Phrase → Prop
  | fromPoint _ _ => True
  | fromPhrase _ _ => True
  | _ => False

/-- A base is as wanted: an offset where the past is allowed or it does not point there, and a
calendar date where it is plausible.  Of other bases nothing is asked. -/
def Passes (options : Options) : Phrase → Prop
  | offset o => options.allowPast = true ∨ o.pointsToPast = false
  | calendar c => c.isPlausible = true
  | _ => True

/-- The phrase with the durations and directions of all its shifts left out. -/
def bare : Phrase → Phrase
  | fromPoint _ point => fromPoint ⟨none, none⟩ point
  | fromPhrase _ inner => fromPhrase ⟨none, none⟩ inner.bare
  | phrase => phrase

/-- **A phrase is judged by its two ends.** -/
theorem keeps_iff (options : Options) (phrase : Phrase) :
    phrase.keeps options = true ↔
      (phrase.IsChain → options.allowChains = true) ∧ phrase.base.Passes options := by
  induction phrase with
  | fromPhrase shift inner ih =>
    -- the inner phrase asks the same of the options as the outer one, or less
    rw [keeps_fromPhrase, Bool.and_eq_true, ih]
    constructor
    · rintro ⟨hchains, -, hbase⟩
      exact ⟨fun _ => hchains, hbase⟩
    · rintro ⟨hchains, hbase⟩
      exact ⟨hchains trivial, fun _ => hchains trivial, hbase⟩
  | _ => simp [keeps, IsChain, base, Passes]

theorem isChain_bare (phrase : Phrase) : phrase.bare.IsChain ↔ phrase.IsChain := by
  cases phrase <;> exact Iff.rfl

/-- Leaving out durations and directions leaves nothing out of a base that is judged. -/
theorem passes_base_bare (phrase : Phrase) :
    phrase.bare.base.Passes options ↔ phrase.base.Passes options := by
  induction phrase with
  | fromPhrase shift inner ih => exact ih
  | _ => exact Iff.rfl

theorem keeps_bare (options : Options) (phrase : Phrase) :
    phrase.bare.keeps options = phrase.keeps options := by
  rw [Bool.eq_iff_iff, keeps_iff, keeps_iff, isChain_bare, passes_base_bare]

/-- **Options that allow more keep at least as much.** -/
theorem keeps_mono (hpast : options.allowPast = true → others.allowPast = true)
    (hchains : options.allowChains = true → others.allowChains = true)
    (h : phrase.keeps options = true) : phrase.keeps others = true := by
  have hpasses : ∀ base : Phrase, base.Passes options → base.Passes others := by
    intro base hbase
    cases base with
    | offset o => exact hbase.imp_left hpast
    | _ => exact hbase
  rw [keeps_iff] at h ⊢
  exact ⟨fun hchain => hchains (h.1 hchain), hpasses _ h.2⟩

/-- **Durations, directions and the limit do not matter** to the verdict. -/
theorem keeps_congr (h : phrase.bare = other.bare) (hpast : options.allowPast = others.allowPast)
    (hchains : options.allowChains = others.allowChains) :
    phrase.keeps options = other.keeps others := by
  rw [← keeps_bare, h, keeps_bare, Bool.eq_iff_iff]
  exact ⟨keeps_mono hpast.symm.trans hchains.symm.trans, keeps_mono hpast.trans hchains.trans⟩

/-- **The verdict on a whole phrase.**  It is kept exactly where chains are allowed, if it is
one, and its base is as wanted.  So no duration, direction or limit on nesting has a say in it,
and nothing that is kept is rejected once more is allowed. -/
theorem keeps_iff_ends (options : Options) (phrase : Phrase) :
    (phrase.keeps options = true ↔
      (phrase.IsChain → options.allowChains = true) ∧ phrase.base.Passes options) ∧
    (∀ (other : Phrase) (others : Options), phrase.bare = other.bare →
      options.allowPast = others.allowPast → options.allowChains = others.allowChains →
      phrase.keeps options = other.keeps others) ∧
    ∀ others : Options, (options.allowPast = true → others.allowPast = true) →
      (options.allowChains = true → others.allowChains = true) →
      phrase.keeps options = true → phrase.keeps others = true :=
  ⟨keeps_iff options phrase, fun _ _ => keeps_congr, fun _ => keeps_mono⟩

end SpokenDate.Phrase
