import BlockHue.Toml.Value

/-!
# Building TOML tables

A table comes into being by its own header, on the way to another header, or on the way to a dotted
key. A header may open a table that was only passed on the way to other headers, once. Dotted keys
may extend only what dotted keys have made. Values are never extended, and no key is given twice.
-/
namespace BlockHue.Toml

/-- How a table came into being. -/
inductive Origin
  | header
  /-- On the way to a header. -/
  | passed
  /-- On the way to a dotted key. -/
  | dotted
  deriving DecidableEq, Repr

/-- An unfinished part of a document. -/
inductive Node
  | value (v : Value)
  | table (origin : Origin) (entries : List (String × Node))
  /-- The tables of an array that headers extend, the latest first. -/
  | tables (items : List (List (String × Node)))

abbrev Entries := List (String × Node)

namespace Entries

def get? (es : Entries) (key : String) : Option Node := es.lookup key

/-- Replaces an entry, or adds it at the end. -/
def set (es : Entries) (key : String) (n : Node) : Entries :=
  if (es.lookup key).isSome then es.map fun e => if e.1 == key then (key, n) else e
  else es ++ [(key, n)]

end Entries

/-- Changes the table at the end of a path. Tables missing on the way are made with origin `origin`.
A path of dotted keys may not enter a table that has its own header.
-/
def updateAt (origin : Origin) (change : Origin → Entries → Option Entries) :
    (path : List String) → Origin → Entries → Option Entries
  | [], here, es => change here es
  | key :: path, _, es =>
    match Entries.get? es key with
    | none =>
      (updateAt origin change path origin []).map fun sub => Entries.set es key (.table origin sub)
    | some (.value _) => none
    | some (.table here sub) =>
      if origin == .dotted && here == .header then none
      else (updateAt origin change path here sub).map fun sub =>
        Entries.set es key (.table here sub)
    | some (.tables []) => none
    | some (.tables (item :: earlier)) =>
      (updateAt origin change path .header item).map fun sub =>
        Entries.set es key (.tables (sub :: earlier))

def insertValue (path : List String) (key : String) (v : Value) (es : Entries) : Option Entries :=
  updateAt .dotted (fun here es =>
    if (here == .dotted) == path.isEmpty then none
    else if (Entries.get? es key).isSome then none
    else some (Entries.set es key (.value v))) path .header es

/-- Opens a table by its header. -/
def openTable (path : List String) (key : String) (es : Entries) : Option Entries :=
  updateAt .passed (fun _ es =>
    match Entries.get? es key with
    | none => some (Entries.set es key (.table .header []))
    | some (.table .passed sub) => some (Entries.set es key (.table .header sub))
    | some _ => none) path .header es

/-- Adds a table to an array of tables. -/
def openItem (path : List String) (key : String) (es : Entries) : Option Entries :=
  updateAt .passed (fun _ es =>
    match Entries.get? es key with
    | none => some (Entries.set es key (.tables [[]]))
    | some (.tables items) => some (Entries.set es key (.tables ([] :: items)))
    | some _ => none) path .header es

mutual

def Node.toValue : Node → Value
  | .value v => v
  | .table _ es => .table (Node.toEntries es)
  | .tables items => .array (Node.toItems items).reverse

def Node.toEntries : List (String × Node) → List (String × Value)
  | [] => []
  | (key, n) :: es => (key, n.toValue) :: Node.toEntries es

def Node.toItems : List (List (String × Node)) → List Value
  | [] => []
  | es :: items => .table (Node.toEntries es) :: Node.toItems items

end

end BlockHue.Toml
