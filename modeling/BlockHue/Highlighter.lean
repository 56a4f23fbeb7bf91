import BlockHue.Registry
import BlockHue.Render

/-!
# Highlighter

A registry with the palette in use.
-/
namespace BlockHue

structure Highlighter where
  registry : Registry
  palette : Palette

namespace Highlighter

def assignments (h : Highlighter) (text : List Char) (language : String) :
    Except Error (List Assignment) :=
  h.registry.assign text language h.palette.size

/-- One list of ranges for each colour of the palette. -/
def ranges (o : Overflow) (h : Highlighter) (text : List Char) (language : String) :
    Except Error (Option (List (List Range))) :=
  (h.assignments text language).map fun as =>
    Range.byBucket? o as (LineIndex.ofText text) h.palette.size

end Highlighter

end BlockHue
