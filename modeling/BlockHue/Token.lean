/-!
# Tokens

A token is a stretch of the text with a category. Keywords may be coloured; the other categories
mark where ignored regions and comprehensions begin and end.
-/
namespace BlockHue

/-- The categories, in the order in which tokens that start together are taken. -/
inductive Category
  | openComprehension
  | closeComprehension
  /-- The first character of a region. -/
  | openIgnore
  /-- The last character of a region. -/
  | closeIgnore
  | openBlock
  | closeBlock
  | neutral
  deriving DecidableEq, Repr

namespace Category

def rank : Category → Nat
  | openComprehension => 0
  | closeComprehension => 1
  | openIgnore => 2
  | closeIgnore => 3
  | openBlock => 4
  | closeBlock => 5
  | neutral => 6

def isKeyword : Category → Bool
  | openBlock | closeBlock | neutral => true
  | _ => false

end Category

/-- Offsets and lengths count bytes. -/
structure Token where
  start : Nat
  length : Nat
  category : Category
  deriving DecidableEq, Repr

namespace Token

def stop (t : Token) : Nat := t.start + t.length

/-- Tokens are ordered by start, then by category. -/
def before (a b : Token) : Bool :=
  a.start < b.start || (a.start == b.start && a.category.rank ≤ b.category.rank)

/-- Sorts tokens; equal ones keep their order. -/
def sort (ts : List Token) : List Token := ts.mergeSort before

end Token

end BlockHue
