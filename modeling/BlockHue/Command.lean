import BlockHue.Highlighter
import BlockHue.Options
import BlockHue.Settings

/-!
# The command

What the command prints and how it ends, given its arguments, the settings and a way to read files.
-/
namespace BlockHue

namespace Command

structure Output where
  code : Nat
  stdout : List Char
  stderr : List Char
  deriving DecidableEq, Repr

inductive Outcome
  | finished (out : Output)
  /-- The text could not be written, because of a cut inside a character or a sum
  that is too large. -/
  | crashed
  deriving DecidableEq, Repr

def version : String := "rainbow-end 0.1.0"

def usageLines : List String :=
  [version ++ " - color block keywords by nesting depth",
   "",
   "Usage: rainbow-end [OPTIONS] FILE",
   "",
   "Options:",
   "  -l, --lang ID         Language id (default: detected from extension)",
   "  -p, --profiles PATH   Load extra language profiles from a TOML file",
   "  -c, --colors LIST     Comma-separated palette, e.g. red,green,blue",
   "  -r, --ranges          Print line:col ranges per color bucket",
   "      --list            List available languages",
   "  -h, --help            Show this help message",
   "  -V, --version         Show version information",
   "",
   "Set RAINBOW_LOG=debug for diagnostics."]

def lines (ls : List String) : List Char := ls.flatMap fun l => l.toList ++ ['\n']

def usage : List Char := lines usageLines

variable {m : Type → Type} [Monad m]

abbrev Reader (m : Type → Type) := List Char → m (Except FileError (List Char))

/-- Loads profile files one after the other; the first that fails ends the command. -/
def loadProfiles [Dialect] (read : Reader m) (r : Registry) :
    List (List Char) → ExceptT Error m Registry
  | [] => return r
  | path :: paths => do
    match r.loadFile (← read path) with
    | (.ok _, r) => loadProfiles read r paths
    | (.error e, _) => throw e

/-- The language that was asked for, or the one that the file's name stands for. -/
def chooseLanguage (r : Registry) (o : Options) (file : String) : Except Error String :=
  match o.language with
  | some language => .ok language
  | none =>
    match r.detect? file.toList with
    | some language => .ok language
    | none => .error (.unknownLanguage file)

/-- A file's text in colour, or its ranges; `none` if it can not be written. -/
def display (o : Overflow) (h : Highlighter) (ink : Ink) (options : Options) (text : List Char)
    (language : String) :
    Except Error (Option (List Char)) :=
  if options.ranges then (h.ranges o text language).map fun found => found.bind (Range.renderAll? o)
  else (h.assignments text language).map (renderColored? o ink h.palette text)

/-- What the command prints when its options are in order. -/
def runOptions [Dialect] (o : Overflow) (read : Reader m) (settings : Settings) (ink : Ink)
    (options : Options) :
    ExceptT Error m (Option (List Char)) := do
  let palette ← match options.colors with
    | some list => liftExcept (Palette.ofList list.toList)
    | none => pure settings.palette
  let registry ← loadProfiles read .builtIn (settings.profiles.toList ++
      options.profiles.toList.map String.toList)
  if options.list then return lines registry.languages
  match options.file with
  | none => return usage
  | some file =>
    let language ← liftExcept (chooseLanguage registry options file)
    match ← read file.toList with
    | .error e => throw (.file e)
    | .ok text => liftExcept (display o ⟨registry, palette⟩ ink options text language)
where
  liftExcept {α : Type} (x : Except Error α) : ExceptT Error m α := ExceptT.mk (pure x)

/-- Help and version are asked for in first place only. -/
def run [Dialect] (o : Overflow) (read : Reader m) (settings : Settings) (ink : Ink)
    (args : List String) :
    m Outcome := do
  let printed ← match args.head? with
    | some "--help" | some "-h" => pure (.ok (some usage))
    | some "--version" | some "-V" => pure (.ok (some (lines [version])))
    | _ =>
      match Options.parse args with
      | .error e => pure (.error e)
      | .ok options => (runOptions o read settings ink options).run
  match printed with
  | .ok (some out) => return .finished ⟨0, out, []⟩
  | .ok none => return .crashed
  | .error e => return .finished ⟨1, [], "Error: ".toList ++ e.message.toList ++ ['\n']⟩

end Command

end BlockHue
