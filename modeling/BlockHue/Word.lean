/-!
# Machine words

Offsets, lengths, lines and columns are kept in words of 64 bits. A sum that is too large for a word
ends the program where sums are checked, and wraps round where they are not.
-/
namespace BlockHue

/-- The number of words. -/
def Word.count : Nat := UInt64.size

/-- What becomes of a sum that is too large for a word. -/
inductive Overflow
  | fails
  | wraps
  deriving DecidableEq, Repr

namespace Overflow

def add? (o : Overflow) (a b : Nat) : Option Nat :=
  if a + b < Word.count then some (a + b)
  else match o with
    | fails => none
    | wraps => some (a + b - Word.count)

theorem add?_of_lt {a b : Nat} (h : a + b < Word.count) (o : Overflow) :
    o.add? a b = some (a + b) := if_pos h

theorem add?_eq_none_iff {o : Overflow} {a b : Nat} :
    o.add? a b = none ↔ o = fails ∧ Word.count ≤ a + b := by
  unfold add?
  split
  next h => simp [Nat.not_le.mpr h]
  next h => cases o <;> simp [Nat.not_lt.mp h]

/-- One more; behind the largest word only 0 is left. -/
def next? (o : Overflow) (n : Nat) : Option Nat :=
  if n + 1 = Word.count then
    match o with
    | fails => none
    | wraps => some 0
  else some (n + 1)

end Overflow

end BlockHue
