import EntitySchema.Number.Decimal

/-!
Dates and times in TOML. A value has a date, a time, or both, and with both it may have an offset.
-/

namespace EntitySchema.Toml

open Number

structure Date where
  year : Nat
  month : Nat
  day : Nat
  deriving DecidableEq, Repr, Inhabited

structure Time where
  hour : Nat
  minute : Nat
  second : Nat
  nanosecond : Nat
  deriving DecidableEq, Repr, Inhabited

inductive Offset where
  | utc
  | minutes (n : Int)
  deriving DecidableEq, Repr, Inhabited

structure Moment where
  date : Option Date
  time : Option Time
  offset : Option Offset
  deriving DecidableEq, Repr, Inhabited

/-! ## Reading -/

/-- A number of exactly `n` digits at the start of a text. -/
def fixed? (n : Nat) (cs : List Char) : Option (Nat × List Char) :=
  let digits := cs.take n
  if digits.length = n ∧ digits.all Char.isDigit then some (ofDigits digits, cs.drop n) else none

/-- A character at the start of a text. -/
def expect? (c : Char) : List Char → Option (List Char)
  | d :: rest => if d == c then some rest else none
  | [] => none

def isLeapYear (year : Nat) : Bool :=
  year % 4 == 0 && (year % 100 != 0 || year % 400 == 0)

def daysIn (year month : Nat) : Nat :=
  if month = 2 then (if isLeapYear year then 29 else 28)
  else if [4, 6, 9, 11].contains month then 30
  else 31

def date? (cs : List Char) : Option (Date × List Char) := do
  let (year, cs) ← fixed? 4 cs
  let cs ← expect? '-' cs
  let (month, cs) ← fixed? 2 cs
  let cs ← expect? '-' cs
  let (day, cs) ← fixed? 2 cs
  if 1 ≤ month ∧ month ≤ 12 ∧ 1 ≤ day ∧ day ≤ daysIn year month then some (⟨year, month, day⟩, cs)
  else none

/-- The nanoseconds that a fraction of a second stands for; digits beyond the ninth do not count. -/
def nanoseconds (digits : List Char) : Nat :=
  let kept := digits.take 9
  ofDigits kept * Nat.pow 10 (9 - kept.length)

/-- How far hours and offsets may go, and what may stand between a date and a time. -/
structure MomentRules where
  maxHour : Nat
  maxOffsetHour : Nat
  maxOffsetMinute : Nat
  /-- The longest offset, in minutes. -/
  maxOffset : Nat
  separators : List Char
  deriving DecidableEq, Repr

/-- The rules for values of a document. -/
def strictRules : MomentRules := ⟨23, 23, 59, 1439, ['T', 't']⟩

/-- The rules for a date or a time that is given as text. -/
def looseRules : MomentRules := ⟨24, 99, 99, 1440, ['T', 't', ' ']⟩

def time? (rules : MomentRules) (cs : List Char) : Option (Time × List Char) := do
  let (hour, cs) ← fixed? 2 cs
  let cs ← expect? ':' cs
  let (minute, cs) ← fixed? 2 cs
  let cs ← expect? ':' cs
  let (second, cs) ← fixed? 2 cs
  if hour ≤ rules.maxHour ∧ minute ≤ 59 ∧ second ≤ 60 then
    match cs with
    | '.' :: rest =>
      let (digits, rest) := rest.span Char.isDigit
      if digits.isEmpty then none else some (⟨hour, minute, second, nanoseconds digits⟩, rest)
    | cs => some (⟨hour, minute, second, 0⟩, cs)
  else none

def offset? (rules : MomentRules) (cs : List Char) : Option (Option Offset) :=
  match cs with
  | [] => some none
  | c :: rest =>
    if c == 'Z' || c == 'z' then (if rest.isEmpty then some (some .utc) else none)
    else if c == '+' || c == '-' then do
      let (hour, rest) ← fixed? 2 rest
      let rest ← expect? ':' rest
      let (minute, rest) ← fixed? 2 rest
      let total := hour * 60 + minute
      if hour ≤ rules.maxOffsetHour ∧ minute ≤ rules.maxOffsetMinute ∧ total ≤ rules.maxOffset ∧
          rest = [] then
        some (some (.minutes (if c == '-' then -(total : Int) else total)))
      else none
    else none

/-- Reads a date, a time, or a date and a time with a separator between them. -/
def Moment.readWith? (rules : MomentRules) (cs : List Char) : Option Moment :=
  match date? cs with
  | some (date, []) => some ⟨some date, none, none⟩
  | some (date, c :: rest) =>
    if rules.separators.contains c then do
      let (time, rest) ← time? rules rest
      let offset ← offset? rules rest
      some ⟨some date, some time, offset⟩
    else none
  | none =>
    match time? rules cs with
    | some (time, []) => some ⟨none, some time, none⟩
    | _ => none

def Moment.read? (cs : List Char) : Option Moment := readWith? strictRules cs

def Moment.readLoose? (cs : List Char) : Option Moment := readWith? looseRules cs

/-! ## Writing -/

/-- A number with zeros in front, up to `n` digits. -/
def padded (n value : Nat) : String :=
  let digits := (decimal value).toList
  String.ofList (List.replicate (n - digits.length) '0' ++ digits)

def Date.render (d : Date) : String :=
  padded 4 d.year ++ "-" ++ padded 2 d.month ++ "-" ++ padded 2 d.day

/-- The fraction of a second without zeros at its end. -/
def Time.renderFraction (t : Time) : String :=
  if t.nanosecond = 0 then ""
  else
    "." ++ String.ofList ((padded 9 t.nanosecond).toList.reverse.dropWhile (· == '0')).reverse

def Time.render (t : Time) : String :=
  padded 2 t.hour ++ ":" ++ padded 2 t.minute ++ ":" ++ padded 2 t.second ++ t.renderFraction

def Offset.render : Offset → String
  | utc => "Z"
  | minutes n =>
    (if n < 0 then "-" else "+") ++ padded 2 (n.natAbs / 60) ++ ":" ++ padded 2 (n.natAbs % 60)

def Moment.render (m : Moment) : String :=
  ((m.date.map Date.render).getD "") ++
    (if m.date.isSome && m.time.isSome then "T" else "") ++
    ((m.time.map Time.render).getD "") ++
    ((m.offset.map Offset.render).getD "")

end EntitySchema.Toml
