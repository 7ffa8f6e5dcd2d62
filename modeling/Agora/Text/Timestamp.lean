import Agora.Number.Digits
/-!
Times as texts: `2024-02-29 08:05:00`, so that later times are greater texts.
-/
namespace Agora.Timestamp

/-- Year, month and day of a day counted from the first of March of the year 0. Years begin in
March here, so that a leap day is the last of its year. -/
def civil (day : Nat) : Nat × Nat × Nat :=
  let era := day / 146097
  let dayOfEra := day % 146097
  let yearOfEra := (dayOfEra - dayOfEra / 1460 + dayOfEra / 36524 - dayOfEra / 146096) / 365
  let dayOfYear := dayOfEra - (365 * yearOfEra + yearOfEra / 4 - yearOfEra / 100)
  let month := (5 * dayOfYear + 2) / 153
  let year := 400 * era + yearOfEra
  (if month < 10 then year else year + 1, if month < 10 then month + 3 else month - 9,
    dayOfYear - (153 * month + 2) / 5 + 1)

def padded (width n : Nat) : List Char :=
  let ds := Digits.ofNat n
  List.replicate (width - ds.length) '0' ++ ds

def epochDay : Nat := 719468

def text (seconds : Nat) : String :=
  let (year, month, day) := civil (seconds / 86400 + epochDay)
  let second := seconds % 86400
  String.ofList (padded 4 year ++ '-' :: padded 2 month ++ '-' :: padded 2 day ++ ' ' ::
    padded 2 (second / 3600) ++ ':' :: padded 2 (second / 60 % 60) ++ ':' :: padded 2 (second % 60))

example : text 0 = "1970-01-01 00:00:00" := by decide +kernel

example : text 1709193900 = "2024-02-29 08:05:00" := by decide +kernel

end Agora.Timestamp
