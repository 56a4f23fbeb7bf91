import BlockHue.Text.Letter

/-!
# Looks

A look takes no characters: it holds or fails at a place by the characters on its two sides, `none`
standing for an end of the text.
-/
namespace BlockHue

/-- The sides that the edge of a word can be seen from. -/
inductive WordLook
  | edge
  | notEdge
  | start
  | stop
  /-- No word character before. -/
  | startHalf
  /-- No word character after. -/
  | stopHalf
  deriving DecidableEq, Repr

inductive Look
  | textStart
  | textEnd
  | lineStart
  | lineEnd
  /-- Start of a line where a carriage return, a newline or both in this order end a line. -/
  | lineStartCrlf
  | lineEndCrlf
  | word (look : WordLook)
  /-- As `word`, with ASCII word characters only. -/
  | asciiWord (look : WordLook)
  deriving DecidableEq, Repr

namespace WordLook

/-- `before` and `after` tell whether a word character stands on that side. -/
def holds (before after : Bool) : WordLook → Bool
  | edge => before != after
  | notEdge => before == after
  | start => !before && after
  | stop => before && !after
  | startHalf => !before
  | stopHalf => !after

end WordLook

namespace Look

def holds (before after : Option Char) : Look → Bool
  | textStart => before.isNone
  | textEnd => after.isNone
  | lineStart => before.isNone || before == some '\n'
  | lineEnd => after.isNone || after == some '\n'
  | lineStartCrlf =>
    before.isNone || before == some '\n' || (before == some '\r' && after != some '\n')
  | lineEndCrlf => after.isNone || after == some '\r' || (after == some '\n' && before != some '\r')
  | word look => look.holds (before.any Text.isWord) (after.any Text.isWord)
  | asciiWord look => look.holds (before.any Text.isAsciiWord) (after.any Text.isAsciiWord)

end Look

end BlockHue
