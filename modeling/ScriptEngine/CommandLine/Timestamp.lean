import ScriptEngine.Text

/-! Points in time as texts, in universal time. -/
namespace ScriptEngine.CommandLine

/-- Year, month and day of a day counted from the start of 1970. Years are taken
to start in March, so that the leap day is a year's last, and are counted in
cycles of 400. -/
def civilDate (day : Int) : Int × Int × Int :=
  let shifted := day + 719468
  let cycle := shifted.fdiv 146097
  let dayOfCycle := shifted - cycle * 146097
  let yearOfCycle :=
    (dayOfCycle - dayOfCycle.fdiv 1460 + dayOfCycle.fdiv 36524 - dayOfCycle.fdiv 146096).fdiv 365
  let dayOfYear := dayOfCycle - (365 * yearOfCycle + yearOfCycle.fdiv 4 - yearOfCycle.fdiv 100)
  let monthFromMarch := (5 * dayOfYear + 2).fdiv 153
  let dayOfMonth := dayOfYear - (153 * monthFromMarch + 2).fdiv 5 + 1
  let month := if monthFromMarch < 10 then monthFromMarch + 3 else monthFromMarch - 9
  (yearOfCycle + cycle * 400 + (if month ≤ 2 then 1 else 0), month, dayOfMonth)

/-- Date and time of day of a second counted from the start of 1970. -/
def timestamp (second : Int) : Text :=
  let day := second.fdiv 86400
  let rest := second - day * 86400
  let (year, month, dayOfMonth) := civilDate day
  let two (n : Int) : Text := Text.ofIntPadded 2 n
  Text.ofIntPadded 4 year ++ utf8 "-" ++ two month ++ utf8 "-" ++ two dayOfMonth ++ utf8 " " ++
    two (rest.fdiv 3600) ++ utf8 ":" ++ two ((rest.fdiv 60).fmod 60) ++ utf8 ":" ++
    two (rest.fmod 60)

end ScriptEngine.CommandLine
