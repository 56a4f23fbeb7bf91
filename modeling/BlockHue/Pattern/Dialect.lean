import BlockHue.Pattern.CharSet

/-!
# Dialects

What the reader of patterns leaves open: which properties of characters have a name, and how large a
pattern may be. A dialect settles both, and all that is said of patterns holds in every dialect.
-/
namespace BlockHue

class Dialect where
  /-- The set that a name in the text of a pattern stands for, or the set of all
  other characters. -/
  property? (negated ignoreCase : Bool) (name : List Char) : Option CharSet
  /-- Whether the pattern of a text is small enough to be used. -/
  fits (ignoreCase : Bool) (source : List Char) : Bool
  /-- A short text without counted repetitions is never too large. -/
  fits_short (ignoreCase : Bool) (source : List Char) (hlength : source.length ≤ 200)
    (hcount : '{' ∉ source) :
    fits ignoreCase source = true

end BlockHue
