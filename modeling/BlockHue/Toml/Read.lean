import BlockHue.Toml.Date
import BlockHue.Toml.Table

/-!
# Reading TOML documents

`Toml.read?` reads a document into the entries of its root table. Arrays and inline tables may be
nested, and dotted keys may be long, up to `nestingLimit`.
-/
namespace BlockHue.Toml

def nestingLimit : Nat := 80

def isKeyChar (c : Char) : Bool :=
  ('a' ≤ c && c ≤ 'z') || ('A' ≤ c && c ≤ 'Z') || isDecimal c || c == '_' || c == '-'

def keyPart? : List Char → Option (String × List Char)
  | '"' :: cs => (basicText cs).map fun (s, rest) => (String.ofList s, rest)
  | '\'' :: cs => (literalText cs).map fun (s, rest) => (String.ofList s, rest)
  | cs =>
    match cs.span isKeyChar with
    | ([], _) => none
    | (s, rest) => some (String.ofList s, rest)

/-- A key of at most `n` parts with dots between them: the parts before the last, and the last. -/
def key? : Nat → List Char → Option ((List String × String) × List Char)
  | 0, _ => none
  | n + 1, cs => do
    let (part, rest) ← keyPart? (skipBlank cs)
    match skipBlank rest with
    | '.' :: rest =>
      let ((path, last), rest) ← key? n rest
      return ((part :: path, last), rest)
    | rest => return (([], part), rest)

/-- A value with a reader for the values inside it. -/
abbrev ValueReader := List Char → Option (Value × List Char)

/-- The items of an array behind its opening bracket. `fuel` bounds their number. -/
def items? (value? : ValueReader) : Nat → List Char → Option (List Value × List Char)
  | 0, _ => none
  | fuel + 1, cs =>
    match skipLines false cs with
    | ']' :: rest => some ([], rest)
    | cs => do
      let (v, rest) ← value? cs
      match skipLines false rest with
      | ',' :: rest =>
        let (vs, rest) ← items? value? fuel rest
        return (v :: vs, rest)
      | ']' :: rest => return ([v], rest)
      | _ => none

def entry? (value? : ValueReader) (cs : List Char) :
    Option ((List String × String × Value) × List Char) := do
  let ((path, key), rest) ← key? (nestingLimit - 1) cs
  let rest ← mark? '=' rest
  let (v, rest) ← value? (skipBlank rest)
  return ((path, key, v), rest)

/-- The entries of an inline table from its first one on. `fuel` bounds their number. -/
def inlineEntries? (value? : ValueReader) : Nat → Entries → List Char → Option (Entries × List Char)
  | 0, _, _ => none
  | fuel + 1, es, cs => do
    let ((path, key, v), rest) ← entry? value? cs
    let es ← insertValue path key v es
    match skipBlank rest with
    | ',' :: rest => inlineEntries? value? fuel es rest
    | '}' :: rest => return (es, rest)
    | _ => none

def inlineTable? (value? : ValueReader) (cs : List Char) : Option (Value × List Char) :=
  match skipBlank cs with
  | '}' :: rest => some (.table [], rest)
  | cs => (inlineEntries? value? cs.length [] cs).map fun (es, rest) =>
    (.table (Node.toEntries es), rest)

def scalar? (cs : List Char) : Option (Value × List Char) :=
  match cs with
  | 't' :: 'r' :: 'u' :: 'e' :: rest => some (.boolean true, rest)
  | 'f' :: 'a' :: 'l' :: 's' :: 'e' :: rest => some (.boolean false, rest)
  | cs =>
    (((text? cs).map fun (s, rest) => (.string s, rest)).or (date? cs)).or
      ((float? cs).or (integer? cs))

/-- A value that nests less than `n` deep. -/
def value? : Nat → ValueReader
  | 0, _ => none
  | n + 1, cs =>
    match cs with
    | '[' :: cs =>
      if n == 0 then none else (items? (value? n) (cs.length + 1) cs).map fun (vs, rest) =>
        (.array vs, rest)
    | '{' :: cs => if n == 0 then none else inlineTable? (value? n) cs
    | cs => scalar? cs

/-- What has been read of a document: its root, and the table that keys now go to. -/
structure Document where
  root : Entries := []
  path : List String := []

def Document.insert (d : Document) (path : List String) (key : String) (v : Value) :
    Option Document :=
  (updateAt .passed (fun _ es => insertValue path key v es) d.path .header d.root).map fun root =>
    { d with root }

def header? (d : Document) (cs : List Char) : Option (Document × List Char) :=
  match cs with
  | '[' :: cs => do
    let ((path, key), rest) ← key? (nestingLimit - 1) cs
    let rest ← (mark? ']' rest).bind (mark? ']')
    let root ← openItem path key d.root
    return (⟨root, path ++ [key]⟩, ← lineEnd? rest)
  | cs => do
    let ((path, key), rest) ← key? (nestingLimit - 1) cs
    let rest ← mark? ']' rest
    let root ← openTable path key d.root
    return (⟨root, path ++ [key]⟩, ← lineEnd? rest)

def statement? (d : Document) (cs : List Char) : Option (Document × List Char) :=
  match cs with
  | '#' :: _ => (lineEnd? cs).map (d, ·)
  | '[' :: cs => header? d cs
  | '\n' :: rest => some (d, rest)
  | '\r' :: '\n' :: rest => some (d, rest)
  | cs => do
    let ((path, key, v), rest) ← entry? (value? nestingLimit) cs
    let d ← d.insert path key v
    return (d, ← lineEnd? rest)

/-- Reads to the end. `fuel` bounds the number of statements. -/
def statements? : Nat → Document → List Char → Option Document
  | 0, _, _ => none
  | fuel + 1, d, cs =>
    match skipBlank cs with
    | [] => some d
    | cs => (statement? d cs).bind fun (d, rest) => statements? fuel d rest

/-- A byte order mark in front of a document is skipped. -/
def dropByteOrderMark : List Char → List Char
  | c :: cs => if c.toNat == 0xFEFF then cs else c :: cs
  | [] => []

/-- Reads a document; `none` if it is malformed. -/
def read? (cs : List Char) : Option (List (String × Value)) :=
  let cs := dropByteOrderMark cs
  (statements? (cs.length + 1) {} cs).map fun d => Node.toEntries d.root

end BlockHue.Toml
