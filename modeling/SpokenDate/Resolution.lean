/-
From fields to dates: what a host program asks for.

Fields are read as a phrase, the phrase is judged and resolved, and the date found is
given at midnight.  Fields that do not say enough yet are no error and give no date.

* **`resolveWith_eq_ok_iff`**: an answer is the answer of a phrase that the fields hold;
* **`report_eq_ok_iff`**: a report shows that phrase together with both its answers;
* **`walk_cons`**: in a walk each date that is found is today for what follows.
-/
import SpokenDate.Reading.Phrase

namespace SpokenDate

/-- What asking for a date brings: a refusal, a date, or none yet. -/
abbrev Answer := Except ReadError (Option DateTime)

/-- Everything there is to say about fields that hold a phrase. -/
structure Report where
  phrase : Phrase
  keep : Bool
  date : Option DateTime
  deriving DecidableEq

/-- The date that the fields stand for, as seen from today. -/
def findDate (fields : Fields) (today : Date) (options : Options) :
    Except ReadError (Option Date) := do
  return (← Phrase.ofFields fields options.maxDepth).resolve? today

/-- The date that the fields stand for, at midnight. -/
def resolveWith (fields : Fields) (today : Date) (options : Options) : Answer := do
  return (← findDate fields today options).map Date.atMidnight

/-- The date that the fields stand for under the default options. -/
def resolve (fields : Fields) (today : Date) : Answer := resolveWith fields today {}

/-- The date that the fields stand for on the day that a clock shows. -/
def resolveNow {m : Type → Type} [Monad m] (clock : m Date) (fields : Fields) : m Answer := do
  return resolve fields (← clock)

/-- Whether the fields are worth keeping as a candidate. -/
def keep (fields : Fields) (options : Options) : Except ReadError Bool := do
  return (← Phrase.ofFields fields options.maxDepth).keeps options

/-- The phrase, the verdict on it and its date. -/
def report (fields : Fields) (today : Date) (options : Options) : Except ReadError Report := do
  let phrase ← Phrase.ofFields fields options.maxDepth
  return {
    phrase
    keep := phrase.keeps options
    date := (phrase.resolve? today).map Date.atMidnight }

/-- Resolves one after the other, where each date that is found becomes today for the
rest. -/
def walk (options : Options) (today : Date) : List Fields → List Answer
  | [] => []
  | fields :: rest =>
    let found := findDate fields today options
    let next := (found.toOption.bind id).getD today
    found.map (Option.map Date.atMidnight) :: walk options next rest

variable {fields : Fields} {today : Date} {options : Options}

theorem resolveWith_eq_ok_iff {answer : Option DateTime} :
    resolveWith fields today options = .ok answer ↔
      ∃ phrase, Phrase.ofFields fields options.maxDepth = .ok phrase ∧
        answer = (phrase.resolve? today).map Date.atMidnight := by
  simp only [resolveWith, findDate]
  cases Phrase.ofFields fields options.maxDepth with
  | error e => simp [bind, Except.bind]
  | ok phrase => simp [bind, Except.bind, pure, Except.pure, eq_comm]

theorem report_eq_ok_iff {r : Report} :
    report fields today options = .ok r ↔
      Phrase.ofFields fields options.maxDepth = .ok r.phrase ∧
        r.keep = r.phrase.keeps options ∧
        r.date = (r.phrase.resolve? today).map Date.atMidnight := by
  obtain ⟨phrase, verdict, date⟩ := r
  simp only [report]
  cases Phrase.ofFields fields options.maxDepth with
  | error e => simp [bind, Except.bind]
  | ok found =>
    simp only [bind, Except.bind, pure, Except.pure, Except.ok.injEq, Report.mk.injEq]
    constructor
    · rintro ⟨rfl, rfl, rfl⟩
      exact ⟨rfl, rfl, rfl⟩
    · rintro ⟨rfl, rfl, rfl⟩
      exact ⟨rfl, rfl, rfl⟩

theorem walk_cons (rest : List Fields) :
    walk options today (fields :: rest) =
      resolveWith fields today options ::
        walk options (((findDate fields today options).toOption.bind id).getD today) rest := by
  rw [walk, resolveWith]
  cases findDate fields today options <;> rfl

end SpokenDate
