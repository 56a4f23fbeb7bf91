import BlockHue.Error
import BlockHue.Text.Case
import BlockHue.Text.Space

/-!
# Colours and palettes

A palette is a list of at least one colour. Depths take its colours in turn.
-/
namespace BlockHue

/-- The sixteen terminal colours and the terminal's own. -/
inductive Color
  | default
  | black
  | red
  | green
  | yellow
  | blue
  | magenta
  | cyan
  | white
  | brightBlack
  | brightRed
  | brightGreen
  | brightYellow
  | brightBlue
  | brightMagenta
  | brightCyan
  | brightWhite
  deriving DecidableEq, Repr

namespace Color

/-- The letters of a name that count: no hyphen, low line or blank, all in lowercase. -/
def key (name : List Char) : String :=
  String.ofList (((Text.trim name).filter fun c => c != '-' && c != '_' && c != ' ').flatMap
    Text.lowerChar)

def ofKey? (key : String) : Option Color :=
  match key with
  | "default" => some default
  | "black" => some black
  | "red" => some red
  | "green" => some green
  | "yellow" => some yellow
  | "blue" => some blue
  | "magenta" => some magenta
  | "cyan" => some cyan
  | "white" => some white
  | "brightblack" | "gray" | "grey" => some brightBlack
  | "brightred" => some brightRed
  | "brightgreen" => some brightGreen
  | "brightyellow" => some brightYellow
  | "brightblue" => some brightBlue
  | "brightmagenta" => some brightMagenta
  | "brightcyan" => some brightCyan
  | "brightwhite" => some brightWhite
  | _ => none

/-- The colour of a name, however its words are joined and in any letter case. -/
def ofName? (name : List Char) : Option Color := ofKey? (key name)

/-- The number of a colour in the terminal's table; the terminal's own colour has none. -/
def code? : Color → Option Nat
  | default => none
  | black => some 0
  | red => some 1
  | green => some 2
  | yellow => some 3
  | blue => some 4
  | magenta => some 5
  | cyan => some 6
  | white => some 7
  | brightBlack => some 8
  | brightRed => some 9
  | brightGreen => some 10
  | brightYellow => some 11
  | brightBlue => some 12
  | brightMagenta => some 13
  | brightCyan => some 14
  | brightWhite => some 15

end Color

structure Palette where
  colors : List Color
  nonempty : colors ≠ [] := by decide
  deriving DecidableEq, Repr

namespace Palette

def standard : Palette := { colors := [.yellow, .magenta, .cyan] }

def ofColors (colors : List Color) : Except Error Palette :=
  if h : colors = [] then .error .emptyPalette else .ok ⟨colors, h⟩

/-- Reads colours by name; the first name without a colour is reported. -/
def colorsOfNames : List (List Char) → Except Error (List Color)
  | [] => .ok []
  | name :: names =>
    match Color.ofName? name with
    | none => .error (.unknownColor (String.ofList name))
    | some color => (colorsOfNames names).map (color :: ·)

def ofNames (names : List (List Char)) : Except Error Palette := (colorsOfNames names).bind ofColors

/-- The entries of a list with commas, trimmed; blank entries do not count. -/
def entries (list : List Char) : List (List Char) :=
  ((Text.splitOn ',' list).map Text.trim).filter (!·.isEmpty)

def ofList (list : List Char) : Except Error Palette := ofNames (entries list)

def size (p : Palette) : Nat := p.colors.length

theorem size_pos (p : Palette) : 0 < p.size := List.length_pos_iff.2 p.nonempty

/-- The colour of a slot; slots beyond the last start over. -/
def color (p : Palette) (bucket : Nat) : Color :=
  p.colors.get ⟨bucket % p.size, Nat.mod_lt _ p.size_pos⟩

end Palette

end BlockHue
