import BlockHue.Command
import BlockHue.Pattern.Standard

/-!
# Command line
-/

namespace BlockHue

def fileErrorOf : IO.Error → FileError
  | .inappropriateType _ 20 _ => .notDirectory
  | .inappropriateType _ _ _ => .isDirectory
  | _ => .notFound

def readTextFile (path : List Char) : IO (Except FileError (List Char)) := do
  try
    let bytes ← IO.FS.readBinFile (String.ofList path)
    match String.fromUTF8? bytes with
    | some text => return .ok text.toList
    | none => return .error .notText
  catch e => return .error (fileErrorOf e)

/-- Reads the settings from the home directory. -/
def readSettings : IO Settings := do
  match ← IO.getEnv "HOME" with
  | none => return {}
  | some home => return Settings.ofFile (← readTextFile (home ++ "/.rainbow-end.conf").toList)

/-- Color is written unless the environment asks for none. -/
def readInk : IO Ink := do
  if ((← IO.getEnv "NO_COLOR").getD "").isEmpty then return .color else return .none

end BlockHue

open scoped BlockHue.Dialect.Standard in
def main (args : List String) : IO UInt32 := do
  match ← BlockHue.Command.run .wraps BlockHue.readTextFile (← BlockHue.readSettings)
      (← BlockHue.readInk) args with
  | .finished out =>
    IO.print (String.ofList out.stdout)
    IO.eprint (String.ofList out.stderr)
    return out.code.toUInt32
  | .crashed => return 101
