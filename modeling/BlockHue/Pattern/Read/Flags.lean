import BlockHue.Text.Space

/-!
# Flags and blanks in written patterns

Flags change how the text of a pattern is understood from where they stand to the end of their
group. In verbose mode white space is without meaning and `#` starts a comment that runs to
the end of its line.
-/
namespace BlockHue.Pattern

structure Flags where
  ignoreCase : Bool := false
  multiLine : Bool := false
  dotAll : Bool := false
  swapGreed : Bool := false
  unicode : Bool := true
  crlf : Bool := false
  verbose : Bool := false
  deriving DecidableEq, Repr

/-- Sets the flag of a letter; `none` for a letter without one. -/
def Flags.set? (f : Flags) (letter : Char) (value : Bool) : Option Flags :=
  match letter with
  | 'i' => some { f with ignoreCase := value }
  | 'm' => some { f with multiLine := value }
  | 's' => some { f with dotAll := value }
  | 'U' => some { f with swapGreed := value }
  | 'u' => some { f with unicode := value }
  | 'R' => some { f with crlf := value }
  | 'x' => some { f with verbose := value }
  | _ => none

namespace Read

/-- The leading characters that satisfy `ok`, and the rest. In verbose mode white space and
comments between them, in front of them and behind them are dropped. `comment` tells
whether a comment is open.
-/
def gather (verbose : Bool) (ok : Char → Bool) :
    (comment : Bool) → List Char → List Char × List Char
  | _, [] => ([], [])
  | true, c :: cs => gather verbose ok (c != '\n') cs
  | false, c :: cs =>
    if verbose && Text.isSpace c then gather verbose ok false cs
    else if verbose && c == '#' then gather verbose ok true cs
    else if ok c then
      let (front, back) := gather verbose ok false cs
      (c :: front, back)
    else ([], c :: cs)

def skip (f : Flags) (cs : List Char) : List Char :=
  if f.verbose then (gather true (fun _ => false) false cs).2 else cs

/-- The flags that `letters` ask for. No letter and no minus sign comes twice, and the minus sign
does not come last. -/
def flagLetters (f : Flags) (seen : List Char) (value : Bool) : List Char → Option Flags
  | [] => if seen.head? == some '-' then none else some f
  | c :: cs =>
    if seen.contains c then none
    else if c == '-' then flagLetters f (c :: seen) false cs
    else (f.set? c value).bind fun f => flagLetters f (c :: seen) value cs

end Read

end BlockHue.Pattern
