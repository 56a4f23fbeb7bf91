import BlockHue.Pattern.Read.Class
import BlockHue.Pattern.Read.Group

/-!
# Reading patterns

`Pattern.read?` turns the text of a pattern into a pattern, or refuses it. The reader keeps
a stack of open groups. Each level collects the items of the current branch and the
finished branches before it.

Refused are also patterns that nest deeper than `heightLimit`, and those that are too
large for the dialect.
-/
namespace BlockHue

namespace Pattern

def chain : List Pattern → Pattern
  | [] => empty
  | p :: ps => ps.foldl seq p

/-- The first of several patterns that leads to a match. -/
def choice : List Pattern → Pattern
  | [] => one .empty
  | [p] => p
  | p :: ps => alt p (choice ps)

/-- Whether every match is empty. -/
def takesNothing : Pattern → Bool
  | empty => true
  | look _ => true
  | one _ => false
  | seq p q => p.takesNothing && q.takesNothing
  | alt p q => p.takesNothing && q.takesNothing
  | group _ p => p.takesNothing
  | run _ _ most _ => most == some 0
  | loop p _ most _ => p.takesNothing || most == some 0

/-- A repetition; of a pattern that takes nothing one round does as well as many. -/
def repeated (p : Pattern) (least : Nat) (most : Option Nat) (greedy : Bool) : Pattern :=
  match p with
  | one set => run set least most greedy
  | p =>
    if p.takesNothing then loop p (min least 1) (some (min (most.getD 1) 1)) greedy
    else loop p least most greedy

/-- The deepest nesting of groups, repetitions, branches and classes. -/
def heightLimit : Nat := 250

namespace Read

/-- An item of a branch with its height; a flag directive is an item without a pattern. -/
structure Item where
  pattern : Option Pattern
  height : Nat

structure Branch where
  pattern : Pattern
  height : Nat

/-- The contents of an open group: its finished branches and the items of the current one,
the latest first. -/
structure Level where
  branches : List Branch := []
  items : List Item := []

structure Frame where
  name : Option String
  /-- The flags around the group. -/
  flags : Flags
  outer : Level

structure State where
  flags : Flags
  frames : List Frame := []
  level : Level := {}
  names : List String := []

namespace Level

def push (l : Level) (p : Pattern) (height : Nat) : Level :=
  { l with items := ⟨some p, height⟩ :: l.items }

def branch (l : Level) : Branch where
  pattern := chain (l.items.reverse.filterMap Item.pattern)
  height := heightOver (l.items.map Item.height)

def nextBranch (l : Level) : Level := ⟨l.branch :: l.branches, []⟩

def whole (l : Level) : Branch :=
  let branches := l.branch :: l.branches
  ⟨choice (branches.reverse.map Branch.pattern), heightOver (branches.map Branch.height)⟩

def repeatLast (l : Level) (least : Nat) (most : Option Nat) (greedy : Bool) : Option Level :=
  match l.items with
  | ⟨some p, height⟩ :: items =>
    some { l with items := ⟨some (p.repeated least most greedy), height + 1⟩ :: items }
  | _ => none

end Level

namespace State

def push (st : State) (p : Pattern) (height : Nat) : State :=
  { st with level := st.level.push p height }

def openGroup (st : State) (name : Option String) (flags : Flags) : State :=
  { st with flags, frames := ⟨name, st.flags, st.level⟩ :: st.frames, level := {} }

def closeGroup (st : State) : Option State :=
  match st.frames with
  | [] => none
  | frame :: frames =>
    let inside := st.level.whole
    let p := match frame.name with
      | some name => group name inside.pattern
      | none => inside.pattern
    some { st with flags := frame.flags, frames, level := frame.outer.push p (inside.height + 1) }

/-- Enters what an opening parenthesis begins. A name is given to one group only. -/
def enter (st : State) : Opening → Option State
  | .capture none => some (st.openGroup none st.flags)
  | .capture (some name) =>
    if st.names.contains name then none
    else some ({ st with names := name :: st.names }.openGroup name st.flags)
  | .plain f => some (st.openGroup none f)
  | .flags f =>
    some { st with flags := f, level := { st.level with items := ⟨none, 0⟩ :: st.level.items } }

/-- Repeats the last item; flags may swap the meaning of the greedy mark. -/
def repeatLast (st : State) (least : Nat) (most : Option Nat) (greedy : Bool) : Option State :=
  (st.level.repeatLast least most (greedy != st.flags.swapGreed)).map fun level => { st with level }

end State

def charPattern (f : Flags) (c : Char) : Pattern :=
  if !f.ignoreCase then one (.single c)
  else if f.unicode then one (.letter c)
  else if Text.isAsciiLetter c then one (.ofList [c.toLower, c.toUpper])
  else one (.single c)

/-- The dot takes any character but the end of a line. -/
def dotPattern? (f : Flags) : Option Pattern :=
  if !f.unicode then none
  else if f.dotAll then some (one .any)
  else if f.crlf then some (one (CharSet.ofList ['\r', '\n']).compl)
  else some (one (CharSet.single '\n').compl)

def startLook (f : Flags) : Look :=
  if f.multiLine then (if f.crlf then .lineStartCrlf else .lineStart) else .textStart

def endLook (f : Flags) : Look :=
  if f.multiLine then (if f.crlf then .lineEndCrlf else .lineEnd) else .textEnd

def atomPattern? (f : Flags) : Atom → Option Pattern
  | .char c byte => (plainChar? f c byte).map (charPattern f)
  | .set s => (checkedSet? f s).map one
  | .look l => some (look l)

/-- Reads one item or mark that begins with `c`. -/
def step [Dialect] (st : State) (c : Char) (cs : List Char) : Option (State × List Char) :=
  match c with
  | '(' => (opening st.flags cs).bind fun (o, rest) => (st.enter o).map (·, rest)
  | ')' => st.closeGroup.map (·, cs)
  | '|' => some ({ st with level := st.level.nextBranch }, cs)
  | '[' =>
    (bracketed st.flags cs).map fun (part, rest) => (st.push (one part.set) part.height, rest)
  | '?' => let (greedy, rest) := greedyMark cs; (st.repeatLast 0 (some 1) greedy).map (·, rest)
  | '*' => let (greedy, rest) := greedyMark cs; (st.repeatLast 0 none greedy).map (·, rest)
  | '+' => let (greedy, rest) := greedyMark cs; (st.repeatLast 1 none greedy).map (·, rest)
  | '{' =>
    (count st.flags cs).bind fun (n, greedy, rest) =>
      (st.repeatLast n.least n.most greedy).map (·, rest)
  | '\\' =>
    (escape st.flags cs).bind fun (a, rest) =>
      (atomPattern? st.flags a).map fun p => (st.push p 0, rest)
  | '.' => (dotPattern? st.flags).map fun p => (st.push p 0, cs)
  | '^' => some (st.push (look (startLook st.flags)) 0, cs)
  | '$' => some (st.push (look (endLook st.flags)) 0, cs)
  | c => some (st.push (charPattern st.flags c) 0, cs)

/-- Reads to the end of the text. `fuel` bounds the number of steps. -/
def steps [Dialect] : Nat → State → List Char → Option State
  | 0, _, _ => none
  | fuel + 1, st, cs =>
    match skip st.flags cs with
    | [] => some st
    | c :: cs => (step st c cs).bind fun (st, rest) => steps fuel st rest

end Read

/-- The pattern that a text is written for, whatever its size. -/
def parse? [Dialect] (ignoreCase : Bool) (cs : List Char) : Option Pattern := do
  let st ← Read.steps (cs.length + 1) { flags := { ignoreCase } } cs
  guard st.frames.isEmpty
  let whole := st.level.whole
  guard (whole.height ≤ heightLimit)
  return whole.pattern

/-- Reads a pattern; `none` if the text is not one, or if it is too large. -/
def read? [Dialect] (ignoreCase : Bool) (cs : List Char) : Option Pattern :=
  if Dialect.fits ignoreCase cs then parse? ignoreCase cs else none

end Pattern

end BlockHue
