import BlockHue.Text.Case
import BlockHue.Text.Space

/-!
# File names

A path is split at its slashes. Its file name is its last part; empty parts and single dots do not
count, and two dots are no name. The extension is what follows the last dot of the name, unless
nothing stands before that dot.
-/
namespace BlockHue.FileName

def parts (path : List Char) : List (List Char) :=
  (Text.splitOn '/' path).filter fun part => !part.isEmpty && part != ['.']

def name? (path : List Char) : Option (List Char) := (parts path).getLast?.filter (· != ['.', '.'])

/-- The extension of a path's file name. -/
def extension? (path : List Char) : Option (List Char) := do
  let name ← name? path
  match name.reverse.span (· != '.') with
  | (_, []) => none
  | (_, [_]) => none
  | (ext, _) => return ext.reverse

/-- An extension as it is looked up: in lowercase, without dots in front. -/
def extensionKey (ext : List Char) : String := String.ofList (Text.lower (ext.dropWhile (· == '.')))

def key? (path : List Char) : Option String :=
  (extension? path).map fun ext => String.ofList (Text.lower ext)

end BlockHue.FileName
