/-!
# Language profiles

A profile describes a language by patterns: the keywords that open, close and continue a
block, the delimiters of regions to ignore, and the brackets of comprehensions. All patterns
are kept as written.
-/
namespace BlockHue

/-- A comment or string. -/
structure Region where
  opening : String
  /-- Without a closing pattern the opening one closes the region too. -/
  closing : Option String := none
  /-- The region ends with its line. -/
  singleLine : Bool := false
  deriving DecidableEq, Repr

def Region.line (opening : String) : Region := { opening, singleLine := true }

/-- A region with a closing pattern. -/
def Region.block (opening closing : String) : Region := { opening, closing }

structure Bracket where
  opening : String
  closing : String
  deriving DecidableEq, Repr

structure Profile where
  caseSensitive : Bool := false
  openKeywords : List String := []
  closeKeywords : List String := []
  neutralKeywords : List String := []
  regions : List Region := []
  brackets : List Bracket := []
  /-- The extensions of file names that the language is known by. -/
  extensions : List String := []
  deriving DecidableEq, Repr

end BlockHue
