import BlockHue.Error

/-!
# Command-line options

Arguments are read from left to right: a flag with the value behind it, a switch, or the name of a
file. The last value of each kind holds.
-/
namespace BlockHue

structure Options where
  file : Option String := none
  language : Option String := none
  profiles : Option String := none
  colors : Option String := none
  ranges : Bool := false
  list : Bool := false
  deriving DecidableEq, Repr

namespace Options

/-- What an argument asks for. -/
inductive Arg
  /-- A flag that takes the next argument as its value. -/
  | value (set : Options → String → Options)
  | switch (set : Options → Options)
  | file
  | unknown

def classify (arg : String) : Arg :=
  match arg with
  | "--lang" | "-l" => .value fun o v => { o with language := some v }
  | "--profiles" | "-p" => .value fun o v => { o with profiles := some v }
  | "--colors" | "-c" => .value fun o v => { o with colors := some v }
  | "--ranges" | "-r" => .switch fun o => { o with ranges := true }
  | "--list" => .switch fun o => { o with list := true }
  | arg => if arg.toList.head? == some '-' then .unknown else .file

/-- Reads arguments over the options `o`. -/
def parseFrom (o : Options) : List String → Except Error Options
  | [] => .ok o
  | arg :: args =>
    match classify arg, args with
    | .value set, v :: args => parseFrom (set o v) args
    | .value _, [] => .error (.missingValue arg)
    | .switch set, args => parseFrom (set o) args
    | .file, args => parseFrom { o with file := some arg } args
    | .unknown, _ => .error (.unknownOption arg)

def parse (args : List String) : Except Error Options := parseFrom {} args

end Options

end BlockHue
