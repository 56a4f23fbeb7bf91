import BlockHue.Profile

/-!
# Built-in profiles

The languages that are known from the start close their blocks with keywords. Where one delimiter
begins with another, the longer one is listed first.
-/
namespace BlockHue.BuiltIn

def ruby : Profile where
  openKeywords := ["class", "module", "def", "while", "do", "case", "begin", "loop", "if", "unless"]
  closeKeywords := ["end"]
  neutralKeywords := ["elsif", "else", "when", "rescue", "ensure"]
  regions := [.block "(?m:^)=begin" "(?m:^)=end", .line "#", .block "\"" "\""]
  extensions := ["rb", "rake", "gemspec"]

def lua : Profile where
  openKeywords := ["function", "if", "while", "for"]
  closeKeywords := ["end"]
  neutralKeywords := ["then", "else", "elseif"]
  regions := [.block "--\\[\\[" "\\]\\]", .line "--", .block "\"" "\""]
  extensions := ["lua"]

def elixir : Profile where
  openKeywords :=
    ["defmodule", "defmacro", "def", "if", "while", "for", "case", "cond", "unless", "try",
      "quote", "with"]
  closeKeywords := ["end"]
  neutralKeywords := ["do", "else", "elseif", "rescue", "after"]
  regions := [.block "\"\"\"" "\"\"\"", .block "\"" "\"", .line "#"]
  extensions := ["ex", "exs"]

def shell : Profile where
  openKeywords := ["for", "if", "while", "until", "case"]
  closeKeywords := ["fi", "done", "esac"]
  neutralKeywords := ["do", "in", "then", "elif", "else"]
  regions := [.line "#", .block "\"" "\"", .block "'" "'"]
  extensions := ["sh", "bash", "zsh", "ksh"]

def verilog : Profile where
  openKeywords := ["module", "case", "begin"]
  closeKeywords := ["end", "endmodule", "endcase"]
  regions := [.block "/\\*" "\\*/", .line "//", .block "\"" "\""]
  extensions := ["v", "sv", "vh"]

def vhdl : Profile where
  openKeywords := ["entity", "component", "case", "begin"]
  closeKeywords := ["end", "endcase"]
  regions := [.line "--", .block "\"" "\""]
  extensions := ["vhd", "vhdl"]

def crystal : Profile where
  openKeywords :=
    ["class", "module", "struct", "enum", "macro", "def", "if", "while", "case", "unless",
      "until", "try", "do"]
  closeKeywords := ["end"]
  neutralKeywords := ["else", "elseif", "rescue", "ensure"]
  regions := [.line "#", .block "\"" "\""]
  extensions := ["cr"]

/-- Closing keywords carry a hyphen. -/
def cobol : Profile where
  caseSensitive := true
  openKeywords := ["perform", "read", "call", "evaluate", "if"]
  closeKeywords := ["end-perform", "end-read", "end-call", "end-evaluate", "end-if"]
  neutralKeywords := ["else", "when"]
  regions := [.line "\\*>", .block "\"" "\""]
  extensions := ["cob", "cbl", "cpy"]

/-- Keywords inside brackets are clauses of a comprehension. -/
def julia : Profile where
  caseSensitive := true
  openKeywords :=
    ["function", "if", "for", "while", "begin", "let", "quote", "try", "module", "baremodule",
     "mutable struct", "struct", "macro", "do"]
  closeKeywords := ["end"]
  neutralKeywords := ["else", "elseif", "catch", "finally"]
  regions := [.block "#=" "=#", .line "#", .block "\"\"\"" "\"\"\"", .block "\"" "\""]
  brackets := [⟨"\\[", "\\]"⟩]
  extensions := ["jl"]

/-- The built-in profiles with the names of their languages. -/
def profiles : List (String × Profile) :=
  [("ruby", ruby), ("lua", lua), ("elixir", elixir), ("shellscript", shell), ("verilog", verilog),
   ("vhdl", vhdl), ("crystal", crystal), ("COBOL", cobol), ("julia", julia)]

end BlockHue.BuiltIn
