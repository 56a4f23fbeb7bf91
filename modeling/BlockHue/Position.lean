import BlockHue.Depth
import BlockHue.Text.Width
import BlockHue.Word

/-!
# Lines and columns

Offsets count bytes; lines and columns start at zero, and columns count characters. An offset beyond
the end of the text counts as its end, and one inside a character as the end of that character.

A cursor remembers where the last answer was found and goes on from there while it can;
`LineIndex.position` answers each question afresh.
-/
namespace BlockHue

structure Position where
  line : Nat
  column : Nat
  deriving DecidableEq, Repr

structure Range where
  start : Position
  stop : Position
  deriving DecidableEq, Repr

/-- A line: the offset of its first character and the text from there on. -/
structure Line where
  start : Nat
  rest : List Char
  deriving DecidableEq, Repr

def Line.following (offset : Nat) : (rest : List Char) → List Line
  | [] => []
  | c :: cs =>
    let next := offset + c.utf8Size
    if c == '\n' then ⟨next, cs⟩ :: Line.following next cs else Line.following next cs

/-- A text with its lines; there is always a first line. -/
structure LineIndex where
  size : Nat
  first : Line
  others : List Line

namespace LineIndex

def ofText (text : List Char) : LineIndex := ⟨Text.width text, ⟨0, text⟩, Line.following 0 text⟩

/-- A newline at the end of the text starts an empty last line. -/
def lineCount (ix : LineIndex) : Nat := ix.others.length + 1

/-- The last line that starts at or before an offset, with its number. -/
def lineAt (ix : LineIndex) (offset : Nat) : Nat × Line :=
  let passed := ix.others.takeWhile (·.start ≤ offset)
  (passed.length, passed.getLastD ix.first)

end LineIndex

/-- Where the last answer was found: its position, its offset and the text from there on. -/
structure Cursor where
  offset : Nat
  position : Position
  rest : List Char
  deriving DecidableEq, Repr

namespace Cursor

def ofIndex (ix : LineIndex) : Cursor := ⟨0, ⟨0, 0⟩, ix.first.rest⟩

def advance (target : Nat) : (offset : Nat) → Position → (rest : List Char) → Cursor
  | offset, p, [] => ⟨offset, p, []⟩
  | offset, p, c :: cs =>
    if target ≤ offset then ⟨offset, p, c :: cs⟩
    else advance target (offset + c.utf8Size) ⟨p.line, p.column + 1⟩ cs

/-- The cursor at an offset; it starts over at the offset's line unless it stands in that line and
before the offset. -/
def moveTo (cur : Cursor) (ix : LineIndex) (offset : Nat) : Cursor :=
  let offset := min offset ix.size
  let (number, line) := ix.lineAt offset
  if number != cur.position.line || offset < cur.offset then
    advance offset line.start ⟨number, 0⟩ line.rest
  else advance offset cur.offset cur.position cur.rest

def range? (o : Overflow) (cur : Cursor) (ix : LineIndex) (start length : Nat) :
    Option (Range × Cursor) :=
  (o.add? start length).map fun stop =>
    let a := cur.moveTo ix start
    let b := a.moveTo ix stop
    (⟨a.position, b.position⟩, b)

end Cursor

namespace LineIndex

def position (ix : LineIndex) (offset : Nat) : Position :=
  ((Cursor.ofIndex ix).moveTo ix offset).position

def range? (o : Overflow) (ix : LineIndex) (start length : Nat) : Option Range :=
  ((Cursor.ofIndex ix).range? o ix start length).map Prod.fst

end LineIndex

namespace Range

/-- The ranges of the assignments to the first `slots` buckets, each with its bucket,
found with one cursor. -/
def ofAssignments? (o : Overflow) (ix : LineIndex) (slots : Nat) :
    Cursor → List Assignment → Option (List (Nat × Range))
  | _, [] => some []
  | cur, a :: rest =>
    if a.bucket < slots then do
      let (r, cur) ← cur.range? o ix a.start a.length
      let rs ← ofAssignments? o ix slots cur rest
      return (a.bucket, r) :: rs
    else ofAssignments? o ix slots cur rest

/-- One list of ranges for each of `slots` buckets. -/
def byBucket? (o : Overflow) (as : List Assignment) (ix : LineIndex) (slots : Nat) :
    Option (List (List Range)) :=
  (ofAssignments? o ix slots (Cursor.ofIndex ix) as).map fun found =>
    (List.range slots).map fun bucket =>
      found.filterMap fun (b, r) => if b == bucket then some r else none

end Range

end BlockHue
