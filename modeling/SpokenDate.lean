import SpokenDate.Fields.Edit
import SpokenDate.Resolution
import SpokenDate.Proofs.Chain
import SpokenDate.Proofs.Encoding
import SpokenDate.Proofs.Grammar
import SpokenDate.Proofs.Pruning
import SpokenDate.Proofs.Run
import SpokenDate.Proofs.SingleUnit
import SpokenDate.Proofs.Ahead
import SpokenDate.Proofs.Likeness
import SpokenDate.Proofs.Spelling
import SpokenDate.Proofs.Verdict
import SpokenDate.Proofs.RealDay
import SpokenDate.Proofs.Fault
import SpokenDate.Proofs.DayByDay
import SpokenDate.Proofs.Rollover
import SpokenDate.Proofs.MonthEnd
import SpokenDate.Proofs.Century
import SpokenDate.Proofs.Merging
import SpokenDate.Proofs.Travel
import SpokenDate.Proofs.Weekday
import SpokenDate.Proofs.LeapYear
import SpokenDate.Proofs.Week
import SpokenDate.Proofs.Cycle
import SpokenDate.Proofs.MonthOrder
import SpokenDate.Proofs.DaySum
import SpokenDate.Proofs.ByteOrder
import SpokenDate.Proofs.FiniteMap
import SpokenDate.Proofs.Numeral
import SpokenDate.Proofs.Ordinal
import SpokenDate.Proofs.Pivot
