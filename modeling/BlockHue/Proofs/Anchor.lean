import BlockHue.Proofs.Boundary
import BlockHue.Proofs.Pattern.Shift

/-! Keywords and the text in front of them. The pattern of the keywords is tried on what follows
their start, where it can not see the white space before it. Main statement: what is found there is
what the keywords match in the whole text, as long as the anchors that are tried at the start hold
alike in both; the edges of words always do. -/
namespace BlockHue

lemma Text.isWord_eq_false_of_isSpace {c : Char} (h : Text.isSpace c = true) :
    Text.isWord c = false ∧ Text.isAsciiWord c = false := by
  refine Text.of_isSpace (P := fun c => Text.isWord c = false ∧ Text.isAsciiWord c = false) ?_ h
  decide +kernel

namespace Look

/-- Whether it matters to a look which white space comes before. -/
def isAnchor : Look → Bool
  | textStart | lineStart | lineStartCrlf | lineEndCrlf => true
  | textEnd | lineEnd | word _ | asciiWord _ => false

/-- Other looks than anchors hold behind white space as they do in front of a text. -/
lemma holds_of_not_isAnchor {l : Look} (hl : l.isAnchor = false) {before : Option Char}
    (h : before.all Text.isSpace = true) (after : Option Char) :
    l.holds before after = l.holds none after := by
  have hword : before.any Text.isWord = false ∧ before.any Text.isAsciiWord = false := by
    cases before with
    | none => exact ⟨rfl, rfl⟩
    | some c => exact Text.isWord_eq_false_of_isSpace h
  cases l with
  | textStart | lineStart | lineStartCrlf | lineEndCrlf => contradiction
  | textEnd | lineEnd => rfl
  | word look => simp [holds, hword.1]
  | asciiWord look => simp [holds, hword.2]

end Look

namespace Pattern

lemma mem_frontLooks_choice {ps : List Pattern} {l : Look} (h : l ∈ (choice ps).frontLooks) :
    ∃ p ∈ ps, l ∈ p.frontLooks := by
  induction ps with
  | nil => simp [choice, frontLooks] at h
  | cons p ps ih =>
    cases ps with
    | nil => exact ⟨p, List.mem_cons_self, h⟩
    | cons q ps =>
      rcases List.mem_append.mp h with h | h
      · exact ⟨p, List.mem_cons_self, h⟩
      · obtain ⟨r, hr, h⟩ := ih h
        exact ⟨r, List.mem_cons_of_mem p hr, h⟩

end Pattern

namespace Keyword
open Pattern Pattern.Read

/-- The length of the preferred match at a place that white space or the end of the text follows;
none if it is empty. -/
def lengthFrom? (p : Pattern) (place : Place) : Option Nat :=
  ((p.threads { place }).find? fun t => closed t.place.rest).bind fun t =>
    if t.offset == place.offset then none else some (t.offset - place.offset)

lemma lengthAt?_bounded_eq (p : Pattern) (rest : List Char) :
    lengthAt? (bounded p) rest = lengthFrom? p (Place.front rest) := by
  rw [lengthAt?_bounded, lengthFrom?]
  simp [Place.front]

/-- Where looks hold alike in front of a text and at a place inside another with this text
ahead, so do matches. -/
lemma lengthFrom?_front {p : Pattern} {place : Place}
    (h : ∀ l ∈ p.frontLooks,
      l.holds place.before place.rest.head? = l.holds none place.rest.head?) :
    lengthFrom? p (Place.front place.rest) = lengthFrom? p place := by
  have halike :
      Alike {l | l ∈ p.frontLooks} place.rest.length place.offset
        { place := Place.front place.rest }
      { place } :=
    ⟨rfl, (Nat.zero_add _).symm, Nat.le_refl _, h, fun hlt => absurd hlt (Nat.lt_irrefl _)⟩
  have hthreads := forall₂_threads p (fun l hl => hl) halike
  unfold lengthFrom?
  generalize p.threads { place := Place.front place.rest } = ts, p.threads { place } =
    ts' at hthreads ⊢
  induction hthreads with
  | nil => rfl
  | @cons t t' ts ts' ht _ ih =>
    rw [List.find?_cons, List.find?_cons, ht.rest]
    cases closed t.place.rest with
    | true =>
      have hfront : (Place.front place.rest).offset = 0 := rfl
      simp [ht.offset, hfront]
    | false => exact ih

open scoped Dialect.Standard

def anchoredProfile : Profile where
  openKeywords := ["^if"]

/-- A keyword that is anchored to the front of a line, and one that is held by the
edges of a word. -/
def lineKeyword : String := "(?m:^)else\\b|\\bif"

end Keyword
end BlockHue
