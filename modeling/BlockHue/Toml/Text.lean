import BlockHue.Toml.Blank

/-!
# TOML strings

Basic strings stand between double quotes and know escapes; literal strings stand between
single quotes and know none. Three quotes enclose a string of several lines, whose line ends
all read as newlines.
-/
namespace BlockHue.Toml

def hexDigit? (c : Char) : Option Nat :=
  if '0' ≤ c && c ≤ '9' then some (c.toNat - 48)
  else if 'a' ≤ c && c ≤ 'f' then some (c.toNat - 87)
  else if 'A' ≤ c && c ≤ 'F' then some (c.toNat - 55)
  else none

def hexChar? (digits : List Char) : Option Char := do
  let n ← digits.foldlM (fun n c => (hexDigit? c).map (n * 16 + ·)) 0
  if n.isValidChar then some (Char.ofNat n) else none

def escape? (c : Char) : Option Char :=
  match c with
  | 'b' => some '\x08'
  | 't' => some '\t'
  | 'n' => some '\n'
  | 'f' => some '\x0c'
  | 'r' => some '\r'
  | '"' => some '"'
  | '\\' => some '\\'
  | _ => none

def consText (c : Char) (r : List Char × List Char) : List Char × List Char := (c :: r.1, r.2)

/-- A basic string whose opening quote has been read. -/
def basicText : List Char → Option (List Char × List Char)
  | [] => none
  | '"' :: cs => some ([], cs)
  | '\\' :: 'u' :: a :: b :: c :: d :: cs =>
    (hexChar? [a, b, c, d]).bind fun x => (basicText cs).map (consText x)
  | '\\' :: 'U' :: a :: b :: c :: d :: e :: f :: g :: h :: cs =>
    (hexChar? [a, b, c, d, e, f, g, h]).bind fun x => (basicText cs).map (consText x)
  | '\\' :: c :: cs => (escape? c).bind fun x => (basicText cs).map (consText x)
  | c :: cs => if isTextChar c then (basicText cs).map (consText c) else none

def literalText : List Char → Option (List Char × List Char)
  | [] => none
  | '\'' :: cs => some ([], cs)
  | c :: cs => if isTextChar c then (literalText cs).map (consText c) else none

/-- Whether a backslash in front of `cs` ends its line. -/
def endsLine (cs : List Char) : Bool := (newline? (skipBlank cs)).isSome

/-- A basic string of several lines whose opening quotes have been read. Up to two quotes may stand
in front of the closing ones. After a backslash at the end of a line blanks and newlines are
dropped; `trim` tells whether this goes on.
-/
def basicLines : (trim : Bool) → List Char → Option (List Char × List Char)
  | _, [] => none
  | true, ' ' :: cs => basicLines true cs
  | true, '\t' :: cs => basicLines true cs
  | true, '\n' :: cs => basicLines true cs
  | true, '\r' :: '\n' :: cs => basicLines true cs
  | _, '"' :: '"' :: '"' :: '"' :: '"' :: cs => some (['"', '"'], cs)
  | _, '"' :: '"' :: '"' :: '"' :: cs => some (['"'], cs)
  | _, '"' :: '"' :: '"' :: cs => some ([], cs)
  | _, '\n' :: cs => (basicLines false cs).map (consText '\n')
  | _, '\r' :: '\n' :: cs => (basicLines false cs).map (consText '\n')
  | _, '\\' :: 'u' :: a :: b :: c :: d :: cs =>
    (hexChar? [a, b, c, d]).bind fun x => (basicLines false cs).map (consText x)
  | _, '\\' :: 'U' :: a :: b :: c :: d :: e :: f :: g :: h :: cs =>
    (hexChar? [a, b, c, d, e, f, g, h]).bind fun x => (basicLines false cs).map (consText x)
  | _, '\\' :: c :: cs =>
    if endsLine (c :: cs) then basicLines true (c :: cs)
    else (escape? c).bind fun x => (basicLines false cs).map (consText x)
  | _, c :: cs => if isTextChar c then (basicLines false cs).map (consText c) else none

/-- A literal string of several lines whose opening quotes have been read. -/
def literalLines : List Char → Option (List Char × List Char)
  | [] => none
  | '\'' :: '\'' :: '\'' :: '\'' :: '\'' :: cs => some (['\'', '\''], cs)
  | '\'' :: '\'' :: '\'' :: '\'' :: cs => some (['\''], cs)
  | '\'' :: '\'' :: '\'' :: cs => some ([], cs)
  | '\n' :: cs => (literalLines cs).map (consText '\n')
  | '\r' :: '\n' :: cs => (literalLines cs).map (consText '\n')
  | c :: cs => if isTextChar c then (literalLines cs).map (consText c) else none

/-- Drops the newline right after the opening quotes. -/
def dropFirstNewline (cs : List Char) : List Char := (newline? cs).getD cs

def text? : List Char → Option (List Char × List Char)
  | '"' :: '"' :: '"' :: cs => basicLines false (dropFirstNewline cs)
  | '"' :: cs => basicText cs
  | '\'' :: '\'' :: '\'' :: cs => literalLines (dropFirstNewline cs)
  | '\'' :: cs => literalText cs
  | _ => none

end BlockHue.Toml
