/-!
# Byte widths and cuts

Offsets and lengths count the bytes of the UTF-8 form. A cut is possible at character boundaries
only.
-/
namespace BlockHue.Text

def width : List Char → Nat
  | [] => 0
  | c :: cs => c.utf8Size + width cs

/-- Cuts a text after `n` bytes; `none` inside a character or beyond the end. -/
def cutAt? : Nat → List Char → Option (List Char × List Char)
  | 0, cs => some ([], cs)
  | _ + 1, [] => none
  | n + 1, c :: cs =>
    if c.utf8Size ≤ n + 1 then
      (cutAt? (n + 1 - c.utf8Size) cs).map fun (front, back) => (c :: front, back)
    else none

end BlockHue.Text
