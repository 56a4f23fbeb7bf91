import BlockHue.Toml.Text
import BlockHue.Toml.Value

/-!
# TOML numbers

A low line may stand between two digits. Integers have 64 bits. A number with a fraction or an
exponent may not be too large for a 64-bit float.
-/
namespace BlockHue.Toml

def isDecimal (c : Char) : Bool := '0' ≤ c && c ≤ '9'

def isHex (c : Char) : Bool := (hexDigit? c).isSome

def isOctal (c : Char) : Bool := '0' ≤ c && c ≤ '7'

def isBinary (c : Char) : Bool := c == '0' || c == '1'

/-- Further digits, with low lines between them dropped. -/
def moreDigits (isDigit : Char → Bool) : List Char → Option (List Char × List Char)
  | [] => some ([], [])
  | '_' :: c :: cs => if isDigit c then (moreDigits isDigit cs).map (consText c) else none
  | c :: cs =>
    if isDigit c then (moreDigits isDigit cs).map (consText c)
    else if c == '_' then none
    else some ([], c :: cs)

def digits? (isDigit : Char → Bool) : List Char → Option (List Char × List Char)
  | c :: cs => if isDigit c then (moreDigits isDigit cs).map (consText c) else none
  | [] => none

/-- The value of digits of a base up to sixteen. -/
def digitsValue (base : Nat) (digits : List Char) : Nat :=
  digits.foldl (fun n c => n * base + (hexDigit? c).getD 0) 0

/-- A sign; `true` is minus. -/
def sign : List Char → Bool × List Char
  | '-' :: cs => (true, cs)
  | '+' :: cs => (false, cs)
  | cs => (false, cs)

/-- Decimal digits; a zero in front stands alone. -/
def wholeDigits? : List Char → Option (List Char × List Char)
  | '0' :: cs => some (['0'], cs)
  | cs => digits? isDecimal cs

/-- Integers have 64 bits, one of them for the sign. -/
def integerBound : Nat := Nat.pow 2 63

/-- An integer in a base that its first two characters name. -/
def basedInteger? (base : Nat) (isDigit : Char → Bool) (cs : List Char) :
    Option (Value × List Char) := do
  let (digits, rest) ← digits? isDigit cs
  let n := digitsValue base digits
  if n < integerBound then some (.integer n, rest) else none

def integer? : List Char → Option (Value × List Char)
  | '0' :: 'x' :: cs => basedInteger? 16 isHex cs
  | '0' :: 'o' :: cs => basedInteger? 8 isOctal cs
  | '0' :: 'b' :: cs => basedInteger? 2 isBinary cs
  | cs => do
    let (minus, cs) := sign cs
    let (digits, rest) ← wholeDigits? cs
    let n := digitsValue 10 digits
    if n < integerBound then some (.integer (if minus then -n else n), rest)
    else if minus && n == integerBound then some (.integer (-n), rest)
    else none

/-- The least number that rounds to infinity. -/
def floatBound : Nat := Nat.pow 2 1024 - Nat.pow 2 970

/-- Whether `digits`, read as an integer, times ten to the power `exponent` is below
`floatBound`. -/
def isFinite (digits : List Char) (exponent : Int) : Bool :=
  let n := digitsValue 10 digits
  let magnitude : Int := (Nat.toDigits 10 n).length + exponent
  if n == 0 || magnitude < 300 then true
  else if 320 < magnitude then false
  else match exponent with
    | .ofNat e => n * Nat.pow 10 e < floatBound
    | .negSucc e => n < floatBound * Nat.pow 10 (e + 1)

/-- The digits after the point, if there is one. -/
def fraction? : List Char → Option (Option (List Char) × List Char)
  | '.' :: cs => (digits? isDecimal cs).map fun (digits, rest) => (some digits, rest)
  | cs => some (none, cs)

def exponent? : List Char → Option (Option Int × List Char)
  | c :: cs =>
    if c == 'e' || c == 'E' then do
      let (minus, cs) := sign cs
      let (digits, rest) ← digits? isDecimal cs
      let n : Int := digitsValue 10 digits
      return (some (if minus then -n else n), rest)
    else some (none, c :: cs)
  | [] => some (none, [])

def readText (cs rest : List Char) : List Char := cs.take (cs.length - rest.length)

/-- Infinity and the value that is no number. -/
def specialFloat? (cs : List Char) : Option (Value × List Char) :=
  match (sign cs).2 with
  | 'i' :: 'n' :: 'f' :: rest => some (.float (readText cs rest), rest)
  | 'n' :: 'a' :: 'n' :: rest => some (.float (readText cs rest), rest)
  | _ => none

def decimalFloat? (cs : List Char) : Option (Value × List Char) := do
  let (minus, whole) := sign cs
  let (whole, rest) ← wholeDigits? whole
  let (fraction, rest) ← fraction? rest
  let (exponent, rest) ← exponent? rest
  guard (fraction.isSome || exponent.isSome)
  let fraction := fraction.getD []
  guard (minus || isFinite (whole ++ fraction) (exponent.getD 0 - fraction.length))
  return (.float (readText cs rest), rest)

def float? (cs : List Char) : Option (Value × List Char) := (decimalFloat? cs).or (specialFloat? cs)

end BlockHue.Toml
