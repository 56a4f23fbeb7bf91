import BlockHue.Error
import BlockHue.Token

/-!
# Nesting depth

A machine reads the categories of a token stream and gives each visible keyword the depth of its
block. Inside a region nothing is seen; inside the brackets of a comprehension every keyword counts
as one level deeper than the block around it and changes nothing. A region inside brackets makes the
machine forget the brackets.
-/
namespace BlockHue

namespace Depth

inductive Mode
  | default
  | ignore
  /-- Inside so many brackets. -/
  | comprehension (brackets : Nat)
  deriving DecidableEq, Repr

structure State where
  mode : Mode := .default
  depth : Nat := 0
  deriving DecidableEq, Repr

/-- Reads one category; the result is the depth to colour it by, if it is coloured. -/
def State.step (s : State) (c : Category) : Option Nat × State :=
  match s.mode, c with
  | .ignore, .closeIgnore => (none, { s with mode := .default })
  | .ignore, _ => (none, s)
  | _, .openIgnore => (none, { s with mode := .ignore })
  | .default, .openComprehension => (none, { s with mode := .comprehension 1 })
  | .comprehension n, .openComprehension => (none, { s with mode := .comprehension (n + 1) })
  | .comprehension n, .closeComprehension =>
    (none, { s with mode := if n > 1 then .comprehension (n - 1) else .default })
  | .default, .closeComprehension => (none, s)
  | _, .closeIgnore => (none, s)
  | .comprehension _, _ => (some (s.depth + 1), s)
  | .default, .openBlock => (some s.depth, { s with depth := s.depth + 1 })
  | .default, .closeBlock => (some (s.depth - 1), { s with depth := s.depth - 1 })
  | .default, .neutral => (if s.depth == 0 then none else some (s.depth - 1), s)

/-- The tokens that get a depth, with their depths. -/
def run (s : State) : List Token → List (Token × Nat)
  | [] => []
  | t :: ts =>
    match s.step t.category with
    | (some depth, s) => (t, depth) :: run s ts
    | (none, s) => run s ts

end Depth

/-- A coloured stretch of the text; `bucket` is a slot of the palette. -/
structure Assignment where
  start : Nat
  length : Nat
  bucket : Nat
  deriving DecidableEq, Repr

def Assignment.stop (a : Assignment) : Nat := a.start + a.length

/-- The slot that a depth falls into when the slots are taken in turn. -/
def bucketOf (depth slots : Nat) : Except Error Nat :=
  if slots == 0 then .error .emptyPalette else .ok (depth % slots)

def classify (ts : List Token) (slots : Nat) : Except Error (List Assignment) :=
  if slots == 0 then .error .emptyPalette
  else .ok ((Depth.run {} ts).map fun (t, depth) => ⟨t.start, t.length, depth % slots⟩)

end BlockHue
