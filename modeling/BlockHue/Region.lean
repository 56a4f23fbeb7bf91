import BlockHue.Keyword
import BlockHue.Profile
import BlockHue.Token

/-!
# Ignored regions

Comments and strings are found from left to right: of the next block region and the next line region
the one that starts first is taken, the block region if both start together, and the search goes on
behind it. So regions never overlap, and delimiters inside a region are not seen.

`Regions.find` keeps a match that lies ahead and searches again only when it has been passed;
`Regions.findAfresh` searches at every turn.
-/
namespace BlockHue

structure Regions where
  block : Pattern
  line : Pattern
  deriving DecidableEq, Repr

namespace Regions

/-- A block region runs from its opening pattern to the nearest closing one. -/
def blockSource (r : Region) : List Char :=
  "(?:".toList ++ r.opening.toList ++ ")(?s:.*?)(?:".toList ++ (r.closing.getD r.opening).toList ++
    ")".toList

/-- A line region runs to the end of its line. -/
def lineWrap (alternatives : List Char) : List Char := "(?:".toList ++ alternatives ++ ").*".toList

def compile? [Dialect] (caseSensitive : Bool) (regions : List Region) : Option Regions := do
  let block ← Pattern.readAll? caseSensitive id ((regions.filter (!·.singleLine)).map blockSource)
  let line ← Pattern.readAll? caseSensitive lineWrap
      ((regions.filter (·.singleLine)).map (·.opening.toList))
  return ⟨block, line⟩

/-- The match to take when the next ones of both kinds are known. -/
def choose : Option Match → Option Match → Option Match
  | some b, some l => some (if l.start.offset < b.start.offset then l else b)
  | some b, none => some b
  | none, l => l

/-- Where the search goes on: behind the match, or one character further if it is empty. -/
def resume (m : Match) : Place := if m.isEmpty then m.start.next else m.stop

inductive Pending
  /-- Nothing has been searched yet. -/
  | unknown
  | found (m : Match)
  /-- No match is left. -/
  | exhausted
  deriving DecidableEq, Repr

namespace Pending

def ofSearch : Option Match → Pending
  | some m => found m
  | none => exhausted

def match? : Pending → Option Match
  | found m => some m
  | _ => none

/-- Brings the knowledge up to a place; a match that lies ahead of it is kept. -/
def update (p : Pattern) (place : Place) : Pending → Pending
  | unknown => ofSearch (p.search? place)
  | found m => if m.start.offset < place.offset then ofSearch (p.search? place) else found m
  | exhausted => exhausted

end Pending

/-- The matches from a place on, empty ones included. `fuel` bounds their number. -/
def findFrom (r : Regions) : Nat → Pending → Pending → Place → List Match
  | 0, _, _, _ => []
  | fuel + 1, block, line, place =>
    if place.atEnd then []
    else
      let block := block.update r.block place
      let line := line.update r.line place
      match choose block.match? line.match? with
      | none => []
      | some m => m :: findFrom r fuel block line (resume m)

def find (r : Regions) (text : List Char) : List Match :=
  (findFrom r (text.length + 1) .unknown .unknown (Place.front text)).filter (!·.isEmpty)

/-- As `findFrom`, with both patterns searched afresh at every place. -/
def findAfreshFrom (r : Regions) : Nat → Place → List Match
  | 0, _ => []
  | fuel + 1, place =>
    if place.atEnd then []
    else match choose (r.block.search? place) (r.line.search? place) with
      | none => []
      | some m => m :: findAfreshFrom r fuel (resume m)

def findAfresh (r : Regions) (text : List Char) : List Match :=
  (findAfreshFrom r (text.length + 1) (Place.front text)).filter (!·.isEmpty)

/-- The markers of a region stand at its first and at its last character. -/
def markers (m : Match) : List Token :=
  match m.start.rest, m.stop.before with
  | first :: _, some last =>
    [⟨m.start.offset, first.utf8Size, .openIgnore⟩,
     ⟨m.stop.offset - last.utf8Size, last.utf8Size, .closeIgnore⟩]
  | _, _ => []

def tokens (r : Regions) (text : List Char) : List Token := (r.find text).flatMap markers

end Regions

end BlockHue
