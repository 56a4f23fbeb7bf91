import BlockHue.Pattern.Read

/-!
# The standard dialect

A few properties have names, and an estimate of the bytes that a compiled pattern takes stands for
its size. Opening the namespace `Dialect.Standard` settles the dialect.
-/
namespace BlockHue

namespace CharSet

def size : CharSet → Nat
  | empty => 32
  | single c => 32 * c.utf8Size
  | letter c => if c.toNat < 128 then 80 else 170
  | range _ last => if last.toNat < 128 then 72 else 256
  | digit => 4000
  | space => 700
  | word => 46000
  | union a b => a.size + b.size
  | inter a b => max a.size b.size
  | diff a b => a.size + b.size
  | symmDiff a b => a.size + b.size
  | compl a => a.size + 600
  | caseClosure a => 2 * a.size

end CharSet

namespace Pattern

def size : Pattern → Nat
  | empty => 32
  | one set => set.size
  | look _ => 32
  | seq p q => p.size + q.size
  | alt p q => p.size + q.size + 40
  | group _ p => p.size + 64
  | run set least most _ => repeatedSize set.size least most
  | loop p least most _ => repeatedSize p.size least most
where
  /-- Copies that may be left out need a branch each. -/
  repeatedSize (one least : Nat) : Option Nat → Nat
    | none => max least 1 * one + 40
    | some most => least * one + (most - least) * (one + 40) + 32

end Pattern

namespace Dialect

/-- Letters of a property's name count up to case; blanks, hyphens and low lines do not count. -/
def propertyKey (name : List Char) : String :=
  String.ofList ((name.filter fun c => c != ' ' && c != '-' && c != '_').map Char.toLower)

def namedSet? (name : List Char) : Option CharSet :=
  match propertyKey name with
  | "any" => some .any
  | "ascii" => some .ascii
  | "nd" | "decimalnumber" => some .digit
  | "whitespace" | "space" | "wspace" => some .space
  | _ => none

/-- The named properties, with no bound on the size of patterns. -/
@[reducible] def unbounded : Dialect where
  property? negated ignoreCase name :=
    (namedSet? name).map fun set =>
      let set := if ignoreCase then set.caseClosure else set
      if negated then set.compl else set
  fits _ _ := true
  fits_short _ _ _ _ := rfl

/-- The largest expansion, ten mebibytes. -/
def sizeLimit : Nat := 10 * 1024 * 1024

@[reducible] def standard : Dialect where
  property? := unbounded.property?
  fits ignoreCase source :=
    (source.length ≤ 200 && !source.contains '{') ||
      (@Pattern.parse? unbounded ignoreCase source).all (·.size ≤ sizeLimit)
  fits_short _ _ hlength hcount := by simp [hlength, hcount]

namespace Standard

scoped instance : Dialect := standard

end Standard

end Dialect

end BlockHue
