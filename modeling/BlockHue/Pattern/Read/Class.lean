import BlockHue.Pattern.Read.Escape

/-!
# Bracketed classes

A class lists characters, ranges, escapes and classes, which stand side by side for a union. The
operators `&&`, `--` and `~~` take whole unions as operands and group to the left. A `]` in first
place and a `-` in first or last place stand for themselves.
-/
namespace BlockHue.Pattern.Read

/-- A set with the height of the text that describes it. -/
structure ClassPart where
  set : CharSet
  height : Nat

inductive ClassOp
  | inter
  | diff
  | symmDiff

inductive ClassFrame
  /-- An open bracket with the parts in front of it. -/
  | bracket (outer : List ClassPart) (negated : Bool)
  /-- An operator with its left operand. -/
  | op (op : ClassOp) (left : ClassPart)

/-- An unfinished class: what encloses the current union, and its parts, the latest first. -/
structure ClassState where
  frames : List ClassFrame
  parts : List ClassPart

def ClassOp.apply (op : ClassOp) (a b : CharSet) : CharSet :=
  match op with
  | inter => a.inter b
  | diff => a.diff b
  | symmDiff => a.symmDiff b

/-- The height of a node over its parts; a single part needs no node. -/
def heightOver : List Nat → Nat
  | [] => 0
  | [h] => h
  | hs => hs.foldl max 0 + 1

/-- The union of parts that are listed latest first. -/
def ClassPart.union (parts : List ClassPart) : ClassPart where
  set := match parts.reverse with
    | [] => .empty
    | p :: ps => ps.foldl (fun s q => s.union q.set) p.set
  height := heightOver (parts.map ClassPart.height)

def closeCase (f : Flags) (s : CharSet) : CharSet := if f.ignoreCase then s.caseClosure else s

/-- The current union, joined to the operator in front of it. -/
def ClassState.operand (f : Flags) (st : ClassState) : ClassPart × List ClassFrame :=
  let right := ClassPart.union st.parts
  match st.frames with
  | .op o left :: frames =>
    (⟨o.apply (closeCase f left.set) (closeCase f right.set), max left.height right.height + 1⟩,
      frames)
  | frames => (right, frames)

def ClassState.add (st : ClassState) (s : CharSet) : ClassState :=
  { st with parts := ⟨s, 0⟩ :: st.parts }

def ClassState.operator (f : Flags) (st : ClassState) (o : ClassOp) : ClassState :=
  let (left, frames) := st.operand f
  ⟨.op o left :: frames, []⟩

/-- Whether the sign of negation comes first, and what follows it. -/
def classSign : List Char → Bool × List Char
  | '^' :: cs => (true, cs)
  | cs => (false, cs)

def classOpen (f : Flags) (st : ClassState) (cs : List Char) : Option (ClassState × List Char) :=
  let (negated, cs) := classSign (skip f cs)
  let (dashes, cs) := gather f.verbose (· == '-') false cs
  let dash : ClassPart := ⟨.single '-', 0⟩
  let st' := ⟨.bracket st.parts negated :: st.frames, dashes.map fun _ => dash⟩
  match dashes, cs with
  | _, [] => none
  | [], ']' :: cs => some ({ st' with parts := [⟨.single ']', 0⟩] }, cs)
  | _, cs => some (st', cs)

/-- Closes a bracket: the finished class, or the state that goes on around it. -/
def classClose (f : Flags) (st : ClassState) : Option (ClassPart ⊕ ClassState) :=
  match st.operand f with
  | (inside, .bracket outer negated :: frames) =>
    let set := closeCase f inside.set
    let part : ClassPart := ⟨if negated then set.compl else set, inside.height + 1⟩
    some (if frames.isEmpty then .inl part else .inr ⟨frames, part :: outer⟩)
  | _ => none

/-- A named class such as `[:alpha:]`, whose first bracket has been read. -/
def namedClass? (f : Flags) (cs : List Char) : Option (CharSet × List Char) :=
  match cs with
  | ':' :: cs =>
    let (negated, cs) := classSign cs
    match cs.span (· != ':') with
    | (name, ':' :: ']' :: rest) =>
      (CharSet.named? (String.ofList name)).map fun s =>
        let s := closeCase f s
        (if negated then s.compl else s, rest)
    | _ => none
  | _ => none

def classAtom [Dialect] (f : Flags) : List Char → Option (Atom × List Char)
  | '\\' :: cs => escape f cs
  | c :: cs => some (.char c false, cs)
  | [] => none

def classChar? (f : Flags) : Atom → Option Char
  | .char c byte => (plainChar? f c byte).filter fun c => f.unicode || c.toNat < 128
  | _ => none

def atomSet? (f : Flags) : Atom → Option CharSet
  | .set s => some s
  | .look _ => none
  | a => (classChar? f a).map .single

/-- The first character after a hyphen that is more than a blank. -/
def afterHyphen (f : Flags) (cs : List Char) : Option Char :=
  if f.verbose then
    match cs.dropWhile Text.isSpace with
    | '#' :: cs => (cs.dropWhile Text.isSpace).head?
    | cs => cs.head?
  else cs.head?

def classRange [Dialect] (f : Flags) (cs : List Char) : Option (CharSet × List Char) := do
  let (a, cs) ← classAtom f cs
  match skip f cs with
  | [] => none
  | '-' :: rest =>
    if afterHyphen f rest == some ']' || afterHyphen f rest == some '-' then
      return (← atomSet? f a, '-' :: rest)
    else
      let (b, rest) ← classAtom f (skip f rest)
      let first ← classChar? f a
      let last ← classChar? f b
      guard (first ≤ last)
      return (.range first last, rest)
  | cs => return (← atomSet? f a, cs)

/-- Reads one member, operator or bracket of a class: the finished class, or the state that goes on,
and what follows. -/
def classStep [Dialect] (f : Flags) (st : ClassState) (cs : List Char) :
    Option ((ClassPart ⊕ ClassState) × List Char) :=
  match skip f cs with
  | [] => none
  | '[' :: cs =>
    match namedClass? f cs with
    | some (s, rest) => some (.inr (st.add s), rest)
    | none => (classOpen f st cs).map fun (st, rest) => (.inr st, rest)
  | ']' :: cs => (classClose f st).map (·, cs)
  | '&' :: '&' :: cs => some (.inr (st.operator f .inter), cs)
  | '-' :: '-' :: cs => some (.inr (st.operator f .diff), cs)
  | '~' :: '~' :: cs => some (.inr (st.operator f .symmDiff), cs)
  | cs => (classRange f cs).map fun (s, rest) => (.inr (st.add s), rest)

/-- Reads on inside a class until its last bracket closes. `fuel` bounds the number of steps. -/
def classRest [Dialect] (f : Flags) : Nat → ClassState → List Char → Option (ClassPart × List Char)
  | 0, _, _ => none
  | fuel + 1, st, cs =>
    (classStep f st cs).bind fun
      | (.inl part, rest) => some (part, rest)
      | (.inr st, rest) => classRest f fuel st rest

/-- Where patterns go by bytes, a set may hold ASCII characters only. -/
def checkedSet? (f : Flags) (s : CharSet) : Option CharSet :=
  if f.unicode then some s
  else if (List.range 128).any fun n => s.contains (Char.ofNat (128 + n)) then none
  else some (s.inter .ascii)

def bracketed [Dialect] (f : Flags) (cs : List Char) : Option (ClassPart × List Char) := do
  let (st, rest) ← classOpen f ⟨[], []⟩ cs
  let (part, rest) ← classRest f (rest.length + 1) st rest
  let set ← checkedSet? f part.set
  return (⟨set, part.height⟩, rest)

end BlockHue.Pattern.Read
