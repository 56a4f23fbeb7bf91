import BlockHue.Comprehension
import BlockHue.Error
import BlockHue.Region

/-!
# Scanning a text

The matchers of a language each find their tokens in the whole text. The tokens are merged in order,
and of keywords that overlap the first is kept.
-/
namespace BlockHue

structure Language where
  id : String
  openKeywords : Pattern
  closeKeywords : Pattern
  neutralKeywords : Pattern
  regions : Regions
  comprehensions : Comprehensions
  deriving DecidableEq, Repr

namespace Language

/-- Compiles a profile; one malformed pattern spoils it as a whole. -/
def compile? [Dialect] (id : String) (p : Profile) : Option Language := do
  let openKeywords ← Keyword.pattern? p.caseSensitive p.openKeywords
  let closeKeywords ← Keyword.pattern? p.caseSensitive p.closeKeywords
  let neutralKeywords ← Keyword.pattern? p.caseSensitive p.neutralKeywords
  let regions ← Regions.compile? p.caseSensitive p.regions
  let comprehensions ← Comprehensions.compile? p.caseSensitive p.brackets
  return ⟨id, openKeywords, closeKeywords, neutralKeywords, regions, comprehensions⟩

def compile [Dialect] (id : String) (p : Profile) : Except Error Language :=
  match compile? id p with
  | some l => .ok l
  | none => .error (.invalidProfile id)

def keywordTokens (p : Pattern) (category : Category) (text : List Char) : List Token :=
  (Keyword.spans p text).map fun s => ⟨s.start, s.length, category⟩

def keywords (l : Language) (text : List Char) : List Token :=
  keywordTokens l.openKeywords .openBlock text ++ keywordTokens l.closeKeywords .closeBlock text ++
    keywordTokens l.neutralKeywords .neutral text

/-- Drops every keyword that starts before the offset `free` or inside a keyword that is kept. -/
def dropCovered (free : Nat) : List Token → List Token
  | [] => []
  | t :: ts =>
    if !t.category.isKeyword then t :: dropCovered free ts
    else if t.start < free then dropCovered free ts
    else t :: dropCovered t.stop ts

/-- The token stream of a text. -/
def scan (l : Language) (text : List Char) : List Token :=
  if Text.isBlank text then []
  else dropCovered 0
    (Token.sort (l.comprehensions.tokens text ++ l.regions.tokens text ++ l.keywords text))

end Language

end BlockHue
