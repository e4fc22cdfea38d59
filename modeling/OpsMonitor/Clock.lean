import Mathlib

/-! Instants and calendar dates. An instant is a whole number of milliseconds since the
epoch, the resolution of the `DATETIME(fsp=3)` columns, and a date is its day number. -/

namespace OpsMonitor

abbrev Time := ℤ

namespace Clock

def seconds (n : ℕ) : Time := 1000 * n

def days (n : ℤ) : Time := 86400000 * n

/-- `DATE(t)` in SQL, `t.date()` in Python. -/
def date (t : Time) : ℤ := t / 86400000

theorem date_mono {s t : Time} (h : s ≤ t) : date s ≤ date t := Int.ediv_le_ediv (by decide) h

/-- Year, month and day of a day number in the proleptic Gregorian calendar, counted in
eras of 400 years that start on the first of March. -/
def civil (day : ℤ) : ℤ × ℤ × ℤ :=
  let z := day + 719468
  let era := z / 146097
  let doe := z % 146097
  let yoe := (doe - doe / 1460 + doe / 36524 - doe / 146096) / 365
  let doy := doe - (365 * yoe + yoe / 4 - yoe / 100)
  let mp := (5 * doy + 2) / 153
  let month := if mp < 10 then mp + 3 else mp - 9
  (yoe + era * 400 + (if month ≤ 2 then 1 else 0), month, doy - (153 * mp + 2) / 5 + 1)

def pad (width : ℕ) (n : ℤ) : String :=
  let digits := toString n
  "".pushn '0' (width - digits.length) ++ digits

/-- `datetime.isoformat`: the fraction is left out when it is zero. -/
def isoformat (t : Time) : String :=
  let (year, month, day) := civil (date t)
  let ms := t % 86400000
  let fraction := if ms % 1000 = 0 then "" else "." ++ pad 3 (ms % 1000) ++ "000"
  pad 4 year ++ "-" ++ pad 2 month ++ "-" ++ pad 2 day ++ "T" ++ pad 2 (ms / 3600000) ++ ":" ++
    pad 2 (ms / 60000 % 60) ++ ":" ++ pad 2 (ms / 1000 % 60) ++ fraction

example : isoformat 1758585605123 = "2025-09-23T00:00:05.123000" := by decide

end Clock
end OpsMonitor
