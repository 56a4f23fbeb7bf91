import BlockHue.Color
import BlockHue.Position

/-!
# Written output

Coloured text is a row of plain and coloured pieces. An assignment is passed over if it starts
before the end of the last one that was used, or ends beyond the text; its end is a sum, which may
be too large. Ranges are written one line per bucket, with lines and columns from one.
-/
namespace BlockHue

inductive Piece
  | plain (text : List Char)
  | colored (color : Color) (text : List Char)
  deriving DecidableEq, Repr

namespace Piece

/-- The pieces of `rest`, which starts `pos` bytes into a text of `size` bytes; `none` if a cut
falls inside a character or an assignment ends before it starts. -/
def ofRest? (o : Overflow) (palette : Palette) (size : Nat) :
    (pos : Nat) → (rest : List Char) → List Assignment → Option (List Piece)
  | _, rest, [] => some [plain rest]
  | pos, rest, a :: as => do
    let stop ← o.add? a.start a.length
    if a.start < pos || size < stop then ofRest? o palette size pos rest as
    else do
      let (before, rest) ← Text.cutAt? (a.start - pos) rest
      guard (a.start ≤ stop)
      let (inside, rest) ← Text.cutAt? (stop - a.start) rest
      let pieces ← ofRest? o palette size stop rest as
      return plain before :: colored (palette.color a.bucket) inside :: pieces

def ofText? (o : Overflow) (palette : Palette) (text : List Char) (as : List Assignment) :
    Option (List Piece) :=
  ofRest? o palette (Text.width text) 0 text as

def text : Piece → List Char
  | plain t => t
  | colored _ t => t

end Piece

/-- Whether the terminal is to show colours. -/
inductive Ink
  | color
  | none
  deriving DecidableEq, Repr

namespace Ink

/-- The sequence that sets a colour; without colours it sets nothing. -/
def set (ink : Ink) (c : Color) : List Char :=
  match ink, c.code? with
  | Ink.none, _ => "\x1b[m".toList
  | Ink.color, Option.none => "\x1b[39m".toList
  | Ink.color, some n => "\x1b[38;5;".toList ++ Nat.toDigits 10 n ++ ['m']

def reset : List Char := "\x1b[0m".toList

end Ink

namespace Piece

def render (ink : Ink) : Piece → List Char
  | plain t => t
  | colored c t => ink.set c ++ t ++ Ink.reset

end Piece

/-- The coloured text; `none` if the assignments can not be written. -/
def renderColored? (o : Overflow) (ink : Ink) (palette : Palette) (text : List Char)
    (as : List Assignment) :
    Option (List Char) :=
  (Piece.ofText? o palette text as).map (·.flatMap (Piece.render ink))

namespace Position

/-- Line and column, both from one. -/
def render? (o : Overflow) (p : Position) : Option (List Char) := do
  let line ← o.next? p.line
  let column ← o.next? p.column
  return Nat.toDigits 10 line ++ ':' :: Nat.toDigits 10 column

end Position

namespace Range

def render? (o : Overflow) (r : Range) : Option (List Char) := do
  let start ← r.start.render? o
  let stop ← r.stop.render? o
  return start ++ '-' :: stop

/-- The lines of the buckets from number `bucket` on. -/
def renderFrom? (o : Overflow) : (bucket : Nat) → List (List Range) → Option (List Char)
  | _, [] => some []
  | bucket, rs :: rest => do
    let words ← rs.mapM (render? o)
    let lines ← renderFrom? o (bucket + 1) rest
    return Nat.toDigits 10 bucket ++ ':' :: words.flatMap (' ' :: ·) ++ '\n' :: lines

def renderAll? (o : Overflow) (buckets : List (List Range)) : Option (List Char) :=
  renderFrom? o 0 buckets

end Range

end BlockHue
