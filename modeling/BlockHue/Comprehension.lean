import BlockHue.Keyword
import BlockHue.Profile
import BlockHue.Token

/-!
# Comprehension brackets

Opening and closing brackets are found apart from one another, each from left to right without
overlaps. Whether they balance is left to the reader of the token stream.
-/
namespace BlockHue

/-- The matches of a pattern from a place on that take at least one character. `fuel`
bounds the searches. -/
def Pattern.matchesFrom (p : Pattern) : Nat → Place → List Match
  | 0, _ => []
  | fuel + 1, place =>
    match p.search? place with
    | none => []
    | some m =>
      if !m.isEmpty then m :: matchesFrom p fuel m.stop
      else if m.stop.atEnd then []
      else matchesFrom p fuel m.stop.next

def Pattern.matches (p : Pattern) (text : List Char) : List Match :=
  p.matchesFrom (text.length + 1) (Place.front text)

structure Comprehensions where
  opening : Pattern
  closing : Pattern
  deriving DecidableEq, Repr

namespace Comprehensions

def compile? [Dialect] (caseSensitive : Bool) (brackets : List Bracket) :
    Option Comprehensions := do
  let opening ← Pattern.readAll? caseSensitive id (brackets.map (·.opening.toList))
  let closing ← Pattern.readAll? caseSensitive id (brackets.map (·.closing.toList))
  return ⟨opening, closing⟩

/-- All opening brackets, then all closing ones. -/
def tokens (b : Comprehensions) (text : List Char) : List Token :=
  (b.opening.matches text).map (fun m => ⟨m.span.start, m.span.length, .openComprehension⟩) ++
    (b.closing.matches text).map (fun m => ⟨m.span.start, m.span.length, .closeComprehension⟩)

end Comprehensions

end BlockHue
