import BlockHue.Error
import BlockHue.Profile
import BlockHue.Toml.Read

/-!
# Profiles in TOML

A profile file holds one table for each language. Fields that are missing take their defaults, and
unknown fields are passed over. A profile, a region or a pair of brackets may also be written as an
array that gives the fields in their order; items beyond the last field are passed over. A date
stands for a table without known fields.
-/
namespace BlockHue

open Toml (Value)

namespace Decode

/-- A record: fields by name or fields by place. -/
inductive Record
  | named (fields : List (String × Value))
  | listed (items : List Value)

def record? : Value → Option Record
  | .table entries => some (.named entries)
  | .array items => some (.listed items)
  | .date _ => some (.named [])
  | _ => none

/-- The field of a name that stands in a given place. -/
def Record.field? (r : Record) (place : Nat) (name : String) : Option Value :=
  match r with
  | .named fields => fields.lookup name
  | .listed items => items[place]?

/-- A field that may be missing. -/
def optional {α : Type} (decode : Value → Option α) (default : α) : Option Value → Option α
  | none => some default
  | some v => decode v

/-- A field that has to be there. -/
def required {α : Type} (decode : Value → Option α) (v : Option Value) : Option α := v.bind decode

def boolean? : Value → Option Bool
  | .boolean b => some b
  | _ => none

def string? : Value → Option String
  | .string s => some (String.ofList s)
  | _ => none

def list? {α : Type} (decode : Value → Option α) : Value → Option (List α)
  | .array items => items.mapM decode
  | _ => none

def region? (v : Value) : Option Region := do
  let r ← record? v
  let opening ← required string? (r.field? 0 "open")
  let closing ← optional (fun v => (string? v).map some) none (r.field? 1 "close")
  let singleLine ← optional boolean? false (r.field? 2 "single_line")
  return { opening, closing, singleLine }

def bracket? (v : Value) : Option Bracket := do
  let r ← record? v
  let opening ← required string? (r.field? 0 "open")
  let closing ← required string? (r.field? 1 "close")
  return { opening, closing }

def profile? (v : Value) : Option Profile := do
  let r ← record? v
  let caseSensitive ← optional boolean? false (r.field? 0 "case_sensitive")
  let openKeywords ← optional (list? string?) [] (r.field? 1 "open_tokens")
  let closeKeywords ← optional (list? string?) [] (r.field? 2 "close_tokens")
  let neutralKeywords ← optional (list? string?) [] (r.field? 3 "neutral_tokens")
  let regions ← optional (list? region?) [] (r.field? 4 "ignore_regions")
  let brackets ← optional (list? bracket?) [] (r.field? 5 "comprehension_delimiters")
  let extensions ← optional (list? string?) [] (r.field? 6 "extensions")
  return {
    caseSensitive, openKeywords, closeKeywords, neutralKeywords, regions, brackets, extensions }

def profiles? (entries : List (String × Value)) : Option (List (String × Profile)) :=
  entries.mapM fun (id, v) => (profile? v).map (id, ·)

end Decode

/-- The profiles of a document in the order of their names. -/
def Profile.readAll (document : List Char) : Except Error (List (String × Profile)) :=
  match (Toml.read? document).bind Decode.profiles? with
  | some ps => .ok (ps.mergeSort fun a b => decide (a.1 ≤ b.1))
  | none => .error .profileFormat

end BlockHue
