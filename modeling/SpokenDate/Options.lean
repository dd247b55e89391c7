/-
Options: what a host program wants of the phrases it is offered.
-/

namespace SpokenDate

/-- What to keep, and how far to look. -/
structure Options where
  /-- Whether to keep offsets that only look backwards. -/
  allowPast : Bool := true
  /-- Whether to keep phrases that count from a date other than today. -/
  allowChains : Bool := true
  /-- How many phrases may be nested inside each other. -/
  maxDepth : Nat := 32
  deriving DecidableEq, Repr

end SpokenDate
