import BlockHue.Pattern.Read
import BlockHue.Pattern.Search

/-!
# Keywords

A keyword starts in front of the text or after white space, and white space or the end of the text
follows it. Its length is read off a named group around the alternatives. The pattern is tried on
what follows the start, so it sees no character before.
-/
namespace BlockHue

namespace Pattern

def never : Pattern := one .empty

/-- The text of a pattern that tries several in turn. -/
def alternation (patterns : List (List Char)) : List Char :=
  ['|'].intercalate (patterns.map fun p => "(?:".toList ++ p ++ ")".toList)

/-- Reads several patterns as one, with `wrap` around their alternation. Without
patterns nothing matches. -/
def readAll? [Dialect] (caseSensitive : Bool) (wrap : List Char → List Char)
    (patterns : List (List Char)) : Option Pattern :=
  if patterns.isEmpty then some never else read? (!caseSensitive) (wrap (alternation patterns))

end Pattern

namespace Keyword

def groupName : String := "kw"

/-- The keyword and the white space or end after it. -/
def wrap (alternatives : List Char) : List Char :=
  "\\A(?P<kw>".toList ++ alternatives ++ ")(?:\\s|\\z)".toList

def pattern? [Dialect] (caseSensitive : Bool) (keywords : List String) : Option Pattern :=
  Pattern.readAll? caseSensitive wrap (keywords.map String.toList)

def lengthAt? (p : Pattern) (rest : List Char) : Option Nat := do
  let m ← p.search? (Place.front rest)
  let span ← m.group? groupName
  if span.length == 0 then none else some span.length

/-- The keywords of the text in front of `rest` on, as spans. `fresh` tells whether a keyword may
start here, and none starts before the offset `free`.
-/
def spansFrom (p : Pattern) : (fresh : Bool) → (free offset : Nat) → (rest : List Char) → List Span
  | _, _, _, [] => []
  | fresh, free, offset, c :: cs =>
    match if fresh && free ≤ offset then lengthAt? p (c :: cs) else none with
    | some n =>
      ⟨offset, offset + n⟩ :: spansFrom p (Text.isSpace c) (offset + n) (offset + c.utf8Size) cs
    | none => spansFrom p (Text.isSpace c) free (offset + c.utf8Size) cs

/-- The keywords of a text, no two of which overlap. -/
def spans (p : Pattern) (text : List Char) : List Span := spansFrom p true 0 0 text

end Keyword

end BlockHue
