/-
The text of a point in time.

`new Date(ms).toISOString()` counts the days of the Gregorian calendar in
both directions from 1970-01-01: the days are grouped in eras of 400 years
that begin on the first of March, so that the leap day ends a year.
-/
import Yunpanel.Js.Value

namespace Yunpanel

namespace IsoDate

/-- Year, month and day of a day, counted from 1970-01-01. -/
def civil (days : Int) : Int × Int × Int :=
  let shifted := days + 719468
  let era := shifted.fdiv 146097
  let dayOfEra := shifted - era * 146097
  let yearOfEra :=
    (dayOfEra - dayOfEra / 1460 + dayOfEra / 36524 - dayOfEra / 146096) / 365
  let dayOfYear :=
    dayOfEra - (365 * yearOfEra + yearOfEra / 4 - yearOfEra / 100)
  let shiftedMonth := (5 * dayOfYear + 2) / 153
  let day := dayOfYear - (153 * shiftedMonth + 2) / 5 + 1
  let month := if shiftedMonth < 10 then shiftedMonth + 3
    else shiftedMonth - 9
  let year := yearOfEra + era * 400
  (if month ≤ 2 then year + 1 else year, month, day)

/-- The decimal digits of a number, with leading zeros. -/
def padded (width : Nat) (n : Int) : String :=
  let digits := toString n.natAbs
  String.ofList (List.replicate (width - digits.length) '0') ++ digits

/-- Four digits, or a sign and six. -/
def yearText (year : Int) : String :=
  if 0 ≤ year ∧ year ≤ 9999 then padded 4 year
  else (if year < 0 then "-" else "+") ++ padded 6 year

end IsoDate

open IsoDate in
/-- `new Date(ms).toISOString()` -/
def Instant.toISOString (instant : Instant) : String :=
  let (year, month, day) := civil (instant.ms.fdiv 86400000)
  let rest := instant.ms.fmod 86400000
  yearText year ++ "-" ++ padded 2 month ++ "-" ++ padded 2 day ++ "T"
    ++ padded 2 (rest / 3600000) ++ ":" ++ padded 2 (rest / 60000 % 60)
    ++ ":" ++ padded 2 (rest / 1000 % 60) ++ "." ++ padded 3 (rest % 1000)
    ++ "Z"

example : Instant.toISOString ⟨1709210096789⟩ = "2024-02-29T12:34:56.789Z" := by
  decide +kernel

example : Instant.toISOString ⟨-62198755200001⟩
    = "-000002-12-31T23:59:59.999Z" := by
  decide +kernel

end Yunpanel
