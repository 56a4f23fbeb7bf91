import BlockHue.Toml.Number

/-!
# TOML dates and times

A date, a time of day, or both with a `T` or a blank between them and perhaps a distance from
universal time. Each field has to be in its range, and the day has to exist in its month.
-/
namespace BlockHue.Toml

def fixedDigits? : Nat → Nat → List Char → Option (Nat × List Char)
  | 0, value, cs => some (value, cs)
  | n + 1, value, c :: cs => if isDecimal c then fixedDigits? n (value * 10 + (c.toNat - 48)) cs
    else none
  | _ + 1, _, [] => none

/-- A field of two digits from `low` to `high`. -/
def field? (low high : Nat) (cs : List Char) : Option (Nat × List Char) :=
  (fixedDigits? 2 0 cs).filter fun (n, _) => low ≤ n && n ≤ high

def mark? (c : Char) : List Char → Option (List Char)
  | d :: cs => if d == c then some cs else none
  | [] => none

def isLeapYear (year : Nat) : Bool := year % 4 == 0 && (year % 100 != 0 || year % 400 == 0)

def daysInMonth (year month : Nat) : Nat :=
  match month with
  | 2 => if isLeapYear year then 29 else 28
  | 4 | 6 | 9 | 11 => 30
  | _ => 31

/-- What follows a date. -/
def dayEnd? (cs : List Char) : Option (List Char) := do
  let (year, cs) ← fixedDigits? 4 0 cs
  let cs ← mark? '-' cs
  let (month, cs) ← field? 1 12 cs
  let cs ← mark? '-' cs
  let (_, cs) ← field? 1 (daysInMonth year month) cs
  return cs

/-- What follows a time of day. -/
def timeEnd? (cs : List Char) : Option (List Char) := do
  let (_, cs) ← field? 0 23 cs
  let cs ← mark? ':' cs
  let (_, cs) ← field? 0 59 cs
  let cs ← mark? ':' cs
  let (_, cs) ← field? 0 60 cs
  match cs with
  | '.' :: c :: cs => if isDecimal c then some (cs.dropWhile isDecimal) else none
  | '.' :: [] => none
  | cs => some cs

/-- What follows a distance from universal time, which may be missing. -/
def zoneEnd? : List Char → Option (List Char)
  | 'Z' :: cs => some cs
  | 'z' :: cs => some cs
  | c :: cs =>
    if c == '+' || c == '-' then do
      let (_, cs) ← field? 0 23 cs
      let cs ← mark? ':' cs
      let (_, cs) ← field? 0 59 cs
      return cs
    else some (c :: cs)
  | [] => some []

/-- What follows the time that may stand behind a date. -/
def afterDay? : List Char → Option (List Char)
  | c :: cs =>
    if c == 'T' || c == 't' || c == ' ' then
      match timeEnd? cs with
      | some rest => zoneEnd? rest
      | none => some (c :: cs)
    else some (c :: cs)
  | [] => some []

def date? (cs : List Char) : Option (Value × List Char) := do
  let rest ← match dayEnd? cs with
    | some rest => afterDay? rest
    | none => timeEnd? cs
  return (.date (readText cs rest), rest)

end BlockHue.Toml
