import BlockHue.Pattern.Read.Flags
import BlockHue.Text.Letter

/-!
# Groups and repetitions

What follows an opening parenthesis, and the counts and marks of a repetition.
-/
namespace BlockHue.Pattern.Read

inductive Opening
  /-- A group that keeps what it took, under its name if it has one. -/
  | capture (name : Option String)
  /-- A group with flags of its own. -/
  | plain (f : Flags)
  /-- Flags for the rest of the enclosing group. -/
  | flags (f : Flags)

/-- Names are made of letters, numbers, `_`, `.`, `[` and `]` and start with a letter or `_`. -/
def isGroupName : List Char → Bool
  | [] => false
  | c :: cs =>
    (c == '_' || Text.isLetter c) &&
      cs.all fun c => c == '_' || c == '.' || c == '[' || c == ']' || Text.isLetterOrNumber c

def groupName (cs : List Char) : Option (String × List Char) :=
  match cs.span (· != '>') with
  | (name, _ :: rest) => if isGroupName name then some (String.ofList name, rest) else none
  | (_, []) => none

/-- Flags, then a colon that opens a group or a parenthesis that closes the directive. -/
def groupFlags (f : Flags) (cs : List Char) : Option (Opening × List Char) :=
  match cs.span (fun c => c != ':' && c != ')') with
  | (letters, ':' :: rest) => (flagLetters f [] true letters).map fun f => (.plain f, rest)
  | ([], _) => none
  | (letters, _ :: rest) => (flagLetters f [] true letters).map fun f => (.flags f, rest)
  | (_, []) => none

/-- Reads what follows an opening parenthesis. Groups that look ahead or behind are refused. -/
def opening (f : Flags) (cs : List Char) : Option (Opening × List Char) :=
  match skip f cs with
  | '?' :: 'P' :: '<' :: cs => (groupName cs).map fun (name, rest) => (.capture name, rest)
  | '?' :: '<' :: cs => (groupName cs).map fun (name, rest) => (.capture name, rest)
  | '?' :: cs => groupFlags f cs
  | cs => some (.capture none, cs)

structure Count where
  least : Nat
  most : Option Nat

/-- A decimal number below two to the power 32, and what follows it and its blanks. -/
def decimal (f : Flags) (cs : List Char) : Option Nat × List Char :=
  let (digits, rest) := gather f.verbose Text.isAsciiDigit false (cs.dropWhile Text.isSpace)
  let value := digits.foldl (fun n c => n * 10 + (c.toNat - 48)) 0
  (if digits.isEmpty || Nat.pow 2 32 ≤ value then none else some value, rest.dropWhile Text.isSpace)

/-- A question mark after a repetition makes it prefer few rounds. -/
def greedyMark : List Char → Bool × List Char
  | '?' :: cs => (false, cs)
  | cs => (true, cs)

def countEnd (f : Flags) (count : Count) : List Char → Option (Count × Bool × List Char)
  | '}' :: cs =>
    if count.most.all (count.least ≤ ·) then
      let (greedy, rest) := greedyMark (skip f cs)
      some (count, greedy, rest)
    else none
  | _ => none

/-- The least number of rounds can not be left out. -/
def countLeast (f : Flags) (least : Nat) : List Char → Option (Count × Bool × List Char)
  | ',' :: cs =>
    match skip f cs with
    | '}' :: cs => countEnd f ⟨least, none⟩ ('}' :: cs)
    | cs =>
      match decimal f cs with
      | (some most, rest) => countEnd f ⟨least, some most⟩ rest
      | (none, _) => none
  | cs => countEnd f ⟨least, some least⟩ cs

def count (f : Flags) (cs : List Char) : Option (Count × Bool × List Char) :=
  match decimal f (skip f cs) with
  | (some least, rest) => countLeast f least rest
  | (none, _) => none

end BlockHue.Pattern.Read
