/-!
# Errors

A text to scan never causes an error; settings, profiles, palettes, files and arguments do. The
wording of every error is in `Error.message`.
-/
namespace BlockHue

/-- Why a file could not be read. -/
inductive FileError
  | notFound
  | isDirectory
  /-- A file stands where the path needs a directory. -/
  | notDirectory
  | notText
  deriving DecidableEq, Repr

def FileError.message : FileError → String
  | notFound => "No such file or directory (os error 2)"
  | isDirectory => "Is a directory (os error 21)"
  | notDirectory => "Not a directory (os error 20)"
  | notText => "stream did not contain valid UTF-8"

inductive Error
  | unknownLanguage (language : String)
  /-- A pattern of the language's profile is malformed. -/
  | invalidProfile (language : String)
  | emptyPalette
  | unknownColor (name : String)
  | file (cause : FileError)
  /-- A profile file is malformed. -/
  | profileFormat
  | unknownOption (arg : String)
  | missingValue (flag : String)
  deriving DecidableEq, Repr

namespace Error

def message : Error → String
  | unknownLanguage language => "No language profile for: " ++ language
  | invalidProfile language =>
    "Language profile " ++ language ++ " failed to compile: malformed pattern"
  | emptyPalette => "Palette must contain at least one color"
  | unknownColor name => "Unknown color: " ++ name
  | file cause => "I/O error: " ++ cause.message
  | profileFormat => "Invalid profile file: malformed document"
  | unknownOption arg => "unknown option: " ++ arg
  | missingValue flag => flag ++ " requires a value"

/-- Errors of the configuration go away once it is mended. -/
def isConfiguration : Error → Bool
  | unknownLanguage _ | invalidProfile _ | emptyPalette | unknownColor _ => true
  | _ => false

end Error

end BlockHue
