import BlockHue.Pattern.Basic
import BlockHue.Pattern.Dialect
import BlockHue.Pattern.Read.Flags

/-!
# Escapes

What a backslash and the characters after it stand for: a character, a set of characters or a look.
A backslash in front of an ASCII character that is neither a letter nor a digit stands for that
character, the angle brackets apart.
-/
namespace BlockHue.Pattern.Read

inductive Atom
  /-- A character; `byte` if it was written as two hexadecimal digits. -/
  | char (c : Char) (byte : Bool)
  | set (s : CharSet)
  | look (l : Look)

def hexDigit? (c : Char) : Option Nat :=
  if '0' ≤ c && c ≤ '9' then some (c.toNat - 48)
  else if 'a' ≤ c && c ≤ 'f' then some (c.toNat - 87)
  else if 'A' ≤ c && c ≤ 'F' then some (c.toNat - 55)
  else none

def char? (n : Nat) : Option Char := if n.isValidChar then some (Char.ofNat n) else none

def hexFixed (f : Flags) : Nat → Nat → List Char → Option (Nat × List Char)
  | 0, value, cs => some (value, cs)
  | _ + 1, _, [] => none
  | n + 1, value, c :: cs => (hexDigit? c).bind fun d => hexFixed f n (value * 16 + d) (skip f cs)

/-- The value of hexadecimal digits, at least one. -/
def hexValue? : List Char → Option Nat
  | [] => none
  | cs => cs.foldlM (fun value c => (hexDigit? c).map (value * 16 + ·)) 0

/-- The text up to a closing brace, and what follows the brace. -/
def braced (f : Flags) (cs : List Char) : Option (List Char × List Char) :=
  match gather f.verbose (· != '}') false cs with
  | (inside, _ :: rest) => some (inside, rest)
  | (_, []) => none

/-- A code point: braces around its digits, or `n` digits. -/
def hexChar (f : Flags) (n : Nat) (byte : Bool) (cs : List Char) : Option (Atom × List Char) :=
  match skip f cs with
  | '{' :: cs => do
    let (digits, rest) ← braced f cs
    let c ← (hexValue? digits).bind char?
    return (.char c false, rest)
  | cs => do
    let (value, rest) ← hexFixed f n 0 cs
    let c ← char? value
    return (.char c byte, rest)

/-- A named property; `negated` asks for the characters without it. -/
def propertyAtom [Dialect] (f : Flags) (negated : Bool) (cs : List Char) :
    Option (Atom × List Char) := do
  guard f.unicode
  let (name, rest) ← match skip f cs with
    | '{' :: cs => braced f cs
    | '\\' :: _ => none
    | c :: cs => some ([c], cs)
    | [] => none
  let set ← Dialect.property? negated f.ignoreCase name
  return (.set set, rest)

def letterClass (f : Flags) (c : Char) : CharSet :=
  match c, f.unicode with
  | 'd', true => .digit
  | 's', true => .space
  | 'd', false => .asciiDigit
  | 's', false => .asciiSpace
  | _, true => .word
  | _, false => .asciiWord

def wordLook (f : Flags) (l : WordLook) : Atom :=
  .look (if f.unicode then .word l else .asciiWord l)

def wordLookNamed? (name : List Char) : Option WordLook :=
  match String.ofList name with
  | "start" => some .start
  | "end" => some .stop
  | "start-half" => some .startHalf
  | "end-half" => some .stopHalf
  | _ => none

/-- The edge of a word, with the name of a special one in braces. Other braces are left
for a repetition. -/
def wordEdge (f : Flags) (cs : List Char) : Option (Atom × List Char) :=
  match cs with
  | '{' :: inside =>
    let isNameChar (c : Char) : Bool := Text.isAsciiLetter c || c == '-'
    match skip f inside with
    | [] => none
    | c :: _ =>
      if isNameChar c then
        match gather f.verbose isNameChar false inside with
        | (name, '}' :: rest) => (wordLookNamed? name).map fun l => (wordLook f l, rest)
        | _ => none
      else some (wordLook f .edge, cs)
  | _ => some (wordLook f .edge, cs)

def isEscapable (c : Char) : Bool :=
  c.toNat < 128 && !Text.isAsciiLetter c && !Text.isAsciiDigit c && c != '<' && c != '>'

/-- Reads what follows a backslash. -/
def escape [Dialect] (f : Flags) : List Char → Option (Atom × List Char)
  | [] => none
  | c :: cs =>
    if isEscapable c then some (.char c false, cs)
    else match c with
      | 'x' => hexChar f 2 true cs
      | 'u' => hexChar f 4 false cs
      | 'U' => hexChar f 8 false cs
      | 'p' => propertyAtom f false cs
      | 'P' => propertyAtom f true cs
      | 'd' | 's' | 'w' => some (.set (letterClass f c), cs)
      | 'D' | 'S' | 'W' => some (.set (letterClass f c.toLower).compl, cs)
      | 'a' => some (.char '\x07' false, cs)
      | 'f' => some (.char '\x0c' false, cs)
      | 't' => some (.char '\t' false, cs)
      | 'n' => some (.char '\n' false, cs)
      | 'r' => some (.char '\r' false, cs)
      | 'v' => some (.char '\x0b' false, cs)
      | 'A' => some (.look .textStart, cs)
      | 'z' => some (.look .textEnd, cs)
      | 'b' => wordEdge f cs
      | 'B' => some (wordLook f .notEdge, cs)
      | '<' => some (wordLook f .start, cs)
      | '>' => some (wordLook f .stop, cs)
      | _ => none

/-- The character itself, unless a lone byte is meant that is no character. -/
def plainChar? (f : Flags) (c : Char) (byte : Bool) : Option Char :=
  if !f.unicode && byte && 128 ≤ c.toNat then none else some c

end BlockHue.Pattern.Read
