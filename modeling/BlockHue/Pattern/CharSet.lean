import BlockHue.Text.Space
import BlockHue.Text.Case

/-!
# Character sets

A set is kept as the expression that describes it, and membership is decided by evaluating the
expression. The closure of a set under case holds every character that is the same letter, up
to case, as a member.
-/
namespace BlockHue

inductive CharSet
  | empty
  | single (c : Char)
  /-- The characters that equal `c` up to case. -/
  | letter (c : Char)
  | range (first last : Char)
  | digit
  | space
  | word
  | union (a b : CharSet)
  | inter (a b : CharSet)
  | diff (a b : CharSet)
  | symmDiff (a b : CharSet)
  | compl (a : CharSet)
  | caseClosure (a : CharSet)
  deriving DecidableEq, Repr

namespace CharSet

def contains : CharSet → Char → Bool
  | empty, _ => false
  | single d, c => c == d
  | letter d, c => Text.fold c == Text.fold d
  | range first last, c => first ≤ c && c ≤ last
  | digit, c => Text.isDigit c
  | space, c => Text.isSpace c
  | word, c => Text.isWord c
  | union a b, c => a.contains c || b.contains c
  | inter a b, c => a.contains c && b.contains c
  | diff a b, c => a.contains c && !b.contains c
  | symmDiff a b, c => a.contains c != b.contains c
  | compl a, c => !a.contains c
  | caseClosure a, c => (Text.caseVariants c).any a.contains

/-- Every character. -/
def any : CharSet := compl empty

/-- The characters of a list. -/
def ofList : List Char → CharSet
  | [] => empty
  | c :: cs => cs.foldl (fun s d => s.union (single d)) (single c)

def ascii : CharSet := range '\x00' '\x7f'

def asciiDigit : CharSet := range '0' '9'

def asciiLower : CharSet := range 'a' 'z'

def asciiUpper : CharSet := range 'A' 'Z'

def asciiLetter : CharSet := asciiLower.union asciiUpper

def asciiWord : CharSet := (asciiLetter.union asciiDigit).union (single '_')

/-- Tab to carriage return, and the blank. -/
def asciiSpace : CharSet := (range '\t' '\r').union (single ' ')

/-- The named classes `[:alpha:]` and so on; they hold ASCII characters only. -/
def named? (name : String) : Option CharSet :=
  match name with
  | "alnum" => some (asciiLetter.union asciiDigit)
  | "alpha" => some asciiLetter
  | "ascii" => some ascii
  | "blank" => some ((single '\t').union (single ' '))
  | "cntrl" => some ((range '\x00' '\x1f').union (single '\x7f'))
  | "digit" => some asciiDigit
  | "graph" => some (range '!' '~')
  | "lower" => some asciiLower
  | "print" => some (range ' ' '~')
  | "punct" =>
    some ((((range '!' '/').union (range ':' '@')).union (range '[' '\x60')).union
      (range '\x7b' '~'))
  | "space" => some asciiSpace
  | "upper" => some asciiUpper
  | "word" => some asciiWord
  | "xdigit" => some ((asciiDigit.union (range 'a' 'f')).union (range 'A' 'F'))
  | _ => none

end CharSet

end BlockHue
