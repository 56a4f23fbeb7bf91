import BlockHue.Color

/-!
# Settings

A settings file holds lines of the form `key = value`. Blank lines, comments after `#` and lines
without an equals sign do not count. Keys count up to case, and the last line of a key holds. A list
of colours that is no palette is passed over.
-/
namespace BlockHue

structure Settings where
  palette : Palette := .standard
  /-- The path of a file with further profiles. -/
  profiles : Option (List Char) := none

namespace Settings

/-- The key and the value of a line. -/
def parseLine (line : List Char) : Option (String × List Char) :=
  let line := Text.trim line
  if line.head? == some '#' then none
  else match line.span (· != '=') with
    | (key, _ :: value) => some (String.ofList (Text.lower (Text.trim key)), Text.trim value)
    | (_, []) => none

def parse (text : List Char) : List (String × List Char) :=
  (Text.splitOn '\n' text).filterMap parseLine

/-- The value of the last line of a key. -/
def lookup (settings : List (String × List Char)) (key : String) : Option (List Char) :=
  settings.reverse.lookup key

def ofText (text : List Char) : Settings :=
  let settings := parse text
  { profiles := (lookup settings "profiles").filter (!·.isEmpty)
    palette := match (lookup settings "colors").map Palette.ofList with
      | some (.ok palette) => palette
      | _ => .standard }

/-- The settings of a file; one that is missing or can not be read leaves the defaults. -/
def ofFile (contents : Except FileError (List Char)) : Settings :=
  match contents with
  | .ok text => ofText text
  | .error _ => {}

end Settings

end BlockHue
