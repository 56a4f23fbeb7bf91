import BlockHue.Pattern.Stream

/-!
# Searching a text

A search returns the match that starts first, and of those that start there the preferred one. What
matches at a place depends on the text and the place alone, so a search from a later place sees the
characters before it.
-/
namespace BlockHue

/-- A match: where it starts, where it stops and the named groups on its way. -/
structure Match where
  start : Place
  stop : Place
  groups : List (String × Span)
  deriving DecidableEq, Repr

namespace Match

def span (m : Match) : Span := ⟨m.start.offset, m.stop.offset⟩

def isEmpty (m : Match) : Bool := m.start.offset == m.stop.offset

/-- The stretch that a named group took last. -/
def group? (m : Match) (name : String) : Option Span := m.groups.lookup name

end Match

namespace Pattern

def matchAt? (p : Pattern) (place : Place) : Option Match :=
  (p.stream { place }).head?.map fun t => ⟨place, t.place, t.groups⟩

theorem matchAt?_eq (p : Pattern) (place : Place) :
    p.matchAt? place = (p.threads { place }).head?.map fun t => ⟨place, t.place, t.groups⟩ := by
  simp [matchAt?, LazyList.head?_eq]

/-- Whether a match can start in front of the text only. -/
def anchored : Pattern → Bool
  | look .textStart => true
  | seq p _ => p.anchored
  | alt p q => p.anchored && q.anchored
  | group _ p => p.anchored
  | _ => false

/-- The first match at or after the place in front of `rest`. -/
def searchFrom? (p : Pattern) (before : Option Char) (rest : List Char) (offset : Nat) :
    Option Match :=
  match p.matchAt? ⟨before, rest, offset⟩, rest with
  | some m, _ => some m
  | none, [] => none
  | none, c :: cs => searchFrom? p (some c) cs (offset + c.utf8Size)

def search? (p : Pattern) (place : Place) : Option Match :=
  if p.anchored then p.matchAt? place else p.searchFrom? place.before place.rest place.offset

end Pattern

end BlockHue
