/-
Offsets that look ahead, and the verdict on those that do not.

Where the past is not wanted, the verdict on an offset only looks at signs and never at the
date.  The signs of the units settle where a duration leads, also where a step by months rolls
over the end of a short one.

* **`Duration.le_of_addTo?`**: a duration that does not point to the past does not lead there;
* **`today_le_of_keep`**: an offset that is kept does not lead to a day before today, as long
  as it does not count forward by negative counts;
* **`keep_threeDaysBackwards`**: one that does is kept, and does lead there.

Design notes: of a counted offset the verdict sees the direction alone, since that is what
tells `3 days ago` from `in 3 days`.  So a count of -3 days ahead escapes it, although the
same count is rejected in a named offset.
-/
import SpokenDate.Proofs.Nesting
import SpokenDate.Proofs.Pruning
import SpokenDate.Proofs.Travel

namespace SpokenDate

variable {d e today : Date} {duration : Duration}

/-- **A duration that does not point to the past** does not lead there. -/
theorem Duration.le_of_addTo? (hahead : duration.pointsToPast = false)
    (h : duration.addTo? d = some e) : d ≤ e :=
  (ahead_of_addTo? hahead h).1

/-! ### The verdict on offsets -/

/-- An offset that the verdict does not find to point to the past adds a duration that does
not point there either, if it neither is a neighbour nor counts forward by negative counts. -/
theorem Offset.duration?_ahead {offset : Offset} (hform : ∀ unit step, offset ≠ .adjacent unit step)
    (hcounts : ∀ duration direction, offset = .counted ⟨some duration, some direction⟩ →
      0 ≤ direction.toInt → duration.pointsToPast = false)
    (hahead : offset.pointsToPast = false) (h : offset.duration? = some duration) :
    duration.pointsToPast = false := by
  match offset with
  | named own =>
    rw [duration?] at h
    split at h
    · cases h
    · cases h
      exact hahead
  | counted ⟨some own, some direction⟩ =>
    have hdirection : ¬direction.toInt < 0 := of_decide_eq_false hahead
    rw [duration?_counted, if_neg hdirection] at h
    cases h
    exact hcounts _ direction rfl (Int.not_lt.1 hdirection)
  | counted ⟨none, _⟩ => cases h
  | counted ⟨some _, none⟩ => cases h
  | adjacent unit step => exact absurd rfl (hform unit step)

/-- An offset is read as the same one within any limit. -/
theorem Phrase.ofFields_offset {fields : Fields} {offset : Offset} {limit : Nat}
    (h : ofFields fields limit = .ok (.offset offset)) (other : Nat) :
    ofFields fields other = .ok (.offset offset) := by
  obtain ⟨depth, outcome, -, hreads, hlinks⟩ := ofFields_eq_ite fields
  have houtcome : outcome = .ok (.offset offset) := by
    rw [hreads] at h
    split at h
    · exact h
    · cases h
  have hdepth : depth = 0 := hlinks _ houtcome
  rw [hreads, if_pos (hdepth ▸ Nat.zero_le other), houtcome]

/-- **No offset that is kept leads into the past** where the past is not wanted, if it is a
named one or a counted one, and does not count forward by negative counts. -/
theorem today_le_of_keep {fields : Fields} {options : Options} {offset : Offset}
    (hread : Phrase.ofFields fields options.maxDepth = .ok (.offset offset))
    (hform : ∀ unit step, offset ≠ .adjacent unit step)
    (hcounts : ∀ duration direction, offset = .counted ⟨some duration, some direction⟩ →
      0 ≤ direction.toInt → duration.pointsToPast = false)
    (hpast : options.allowPast = false) (hkeep : keep fields options = .ok true)
    (others : Options) {found : DateTime}
    (hfound : resolveWith fields today others = .ok (some found)) :
    ∃ date, found = date.atMidnight ∧ today ≤ date := by
  have hahead : offset.pointsToPast = false := by
    obtain ⟨phrase, hphrase, hkeeps⟩ := keep_eq_ok_true_iff.1 hkeep
    cases hread.symm.trans hphrase
    simpa only [Phrase.keeps, hpast, Bool.false_or, Bool.not_eq_true'] using hkeeps
  obtain ⟨phrase, hphrase, hanswer⟩ := resolveWith_eq_ok_iff.1 hfound
  cases (Phrase.ofFields_offset hread _).symm.trans hphrase
  obtain ⟨date, hdate, rfl⟩ := Option.map_eq_some_iff.1 hanswer.symm
  refine ⟨date, rfl, ?_⟩
  obtain ⟨duration, hduration, hadd⟩ := Option.bind_eq_some_iff.1 hdate
  exact Duration.le_of_addTo? (Offset.duration?_ahead hform hcounts hahead hduration) hadd

/-- 31 January 2021. -/
def lastOfJanuary : Date := ⟨737821, by decide, by decide⟩

/-- `In 1 month`, which from 31 January leads to March. -/
def monthAhead : Fields :=
  .singleton "relative" (.map (.ofList [("duration", .map (.singleton "months" (.text "1"))),
    ("direction", .integer 1)]))

theorem today_le_of_keep_monthAhead :
    Phrase.ofFields monthAhead 32 = .ok (.offset (.counted ⟨some (.single .month 1), some 1⟩)) ∧
    keep monthAhead { allowPast := false } = .ok true ∧
    resolveWith monthAhead lastOfJanuary {} = .ok (some ⟨2021, 3, 3, 0, 0, 0⟩) ∧
    ∃ date, (⟨2021, 3, 3, 0, 0, 0⟩ : DateTime) = date.atMidnight ∧ lastOfJanuary ≤ date := by
  have hread : Phrase.ofFields monthAhead 32 =
      .ok (.offset (.counted ⟨some (.single .month 1), some 1⟩)) := rfl
  have hkeep : keep monthAhead { allowPast := false } = .ok true := rfl
  have hfound : resolveWith monthAhead lastOfJanuary {} = .ok (some ⟨2021, 3, 3, 0, 0, 0⟩) := rfl
  refine ⟨hread, hkeep, hfound, today_le_of_keep hread ?_ ?_ rfl hkeep {} hfound⟩
  · intro unit step h
    cases h
  · intro duration direction h _
    cases h
    decide

/-- `In -3 days`. -/
def threeDaysBackwards : Fields :=
  .singleton "relative" (.map (.ofList [("duration", .map (.singleton "days" (.integer (-3)))),
    ("direction", .integer 1)]))

/-- **A negative count ahead is kept**, where the past is not wanted, and leads into it. -/
theorem keep_threeDaysBackwards :
    Phrase.ofFields threeDaysBackwards 32 =
      .ok (.offset (.counted ⟨some (.single .day (-3)), some 1⟩)) ∧
    keep threeDaysBackwards { allowPast := false } = .ok true ∧
    ∃ date, resolveWith threeDaysBackwards lastOfJanuary { allowPast := false } =
        .ok (some date.atMidnight) ∧ date < lastOfJanuary := by
  refine ⟨rfl, rfl, ⟨737818, by decide, by decide⟩, rfl, ?_⟩
  decide

end SpokenDate
