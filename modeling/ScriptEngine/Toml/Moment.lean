import ScriptEngine.Numeral.Grouping

/-! Dates and times of configuration files. They are checked and not
interpreted. -/
namespace ScriptEngine.Toml

/-- The value of exactly `count` digits, and what follows. -/
def digits? : (count value : Nat) → Text → Option (Nat × Text)
  | 0, value, t => some (value, t)
  | _ + 1, _, [] => none
  | count + 1, value, c :: rest =>
    if Numeral.isDigit c then digits? count (value * 10 + (c.toNat - 48)) rest else none

/-- What follows a certain byte. -/
def after? (c : UInt8) : Text → Option Text
  | [] => none
  | d :: rest => if c = d then some rest else none

def isLeapYear (year : Nat) : Bool := year % 4 = 0 && (year % 100 ≠ 0 || year % 400 = 0)

/-- The days of a month. -/
def daysIn (year month : Nat) : Nat :=
  if month = 2 then if isLeapYear year then 29 else 28
  else if month = 4 ∨ month = 6 ∨ month = 9 ∨ month = 11 then 30
  else 31

/-- Skips a date: year, month and day. -/
def skipDate? (t : Text) : Option Text := do
  let (year, t) ← digits? 4 0 t
  let (month, t) ← digits? 2 0 (← after? 0x2d t)
  let (day, t) ← digits? 2 0 (← after? 0x2d t)
  if 1 ≤ month ∧ month ≤ 12 ∧ 1 ≤ day ∧ day ≤ daysIn year month then return t else none

/-- Skips a fraction of a second, if there is one. -/
def skipFraction : Text → Text
  | 0x2e :: c :: rest =>
    if Numeral.isDigit c then rest.dropWhile Numeral.isDigit else 0x2e :: c :: rest
  | t => t

/-- Skips a time of day; seconds may be left out. -/
def skipTime? (t : Text) : Option Text := do
  let (hour, t) ← digits? 2 0 t
  let (minute, t) ← digits? 2 0 (← after? 0x3a t)
  if 24 ≤ hour ∨ 60 ≤ minute then none
  match after? 0x3a t with
  | none => return t
  | some t =>
    let (second, t) ← digits? 2 0 t
    if 60 ≤ second then none
    return skipFraction t

/-- Skips the distance from universal time, if it is given. -/
def skipZone? (t : Text) : Option Text :=
  match t with
  | 0x5a :: rest => some rest
  | c :: rest =>
    if c = 0x2b ∨ c = 0x2d then do
      let (hours, t) ← digits? 2 0 rest
      let (minutes, t) ← digits? 2 0 (← after? 0x3a t)
      if hours ≤ 24 ∧ minutes ≤ 60 then return t else none
    else some t
  | [] => some []

/-- Whether a text is a date, a time of day, or both together with or without a
zone. Date and time are set apart by a letter or a blank. -/
def isMoment (t : Text) : Bool :=
  let t := t.map fun c => if c = 0x7a then 0x5a else if c = 0x74 ∨ c = 0x20 then 0x54 else c
  match skipDate? t with
  | some [] => true
  | some (0x54 :: rest) => (skipTime? rest).bind skipZone? = some []
  | some _ => false
  | none => skipTime? t = some []

end ScriptEngine.Toml
