/-!
# TOML values

Numbers with a fraction and dates are kept as written; they are checked when they are read.
-/
namespace BlockHue.Toml

inductive Value
  | string (s : List Char)
  | integer (n : Int)
  | float (text : List Char)
  | boolean (b : Bool)
  | date (text : List Char)
  | array (items : List Value)
  | table (entries : List (String × Value))

end BlockHue.Toml
