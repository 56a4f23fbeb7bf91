import BlockHue.Proofs.BuiltIn
import BlockHue.Proofs.Delimiter
import BlockHue.Proofs.Segment

/-! Languages of plain words. All patterns of a built-in language are plain: keywords are words,
regions stand between plain delimiters and brackets are single characters. The first character of a
delimiter is in no keyword and is no bracket, so that it seals a region off. -/
namespace BlockHue

/-- The token of a stretch. -/
def Span.token (c : Category) (s : Span) : Token := ⟨s.start, s.length, c⟩

namespace CharSet

/-- The characters that count as one of some letters. -/
def ofLetters (caseSensitive : Bool) : List Char → CharSet
  | [] => .empty
  | [c] => letterSet c
  | c :: cs => .union (letterSet c) (ofLetters caseSensitive cs)
where
  letterSet (c : Char) : CharSet := if caseSensitive then .single c else .letter c

lemma contains_ofLetters {caseSensitive : Bool} {letters : List Char} {c : Char} :
    (ofLetters caseSensitive letters).contains c = true ↔
      ∃ b ∈ letters, Text.canon caseSensitive c = Text.canon caseSensitive b := by
  have hletter (b : Char) : (ofLetters.letterSet caseSensitive b).contains c = true ↔
      Text.canon caseSensitive c = Text.canon caseSensitive b := by
    cases caseSensitive <;> simp [ofLetters.letterSet, contains, Text.canon]
  induction letters with
  | nil => simp [ofLetters, contains]
  | cons b letters ih =>
    cases letters with
    | nil => simp [ofLetters, hletter]
    | cons d letters => simpa [ofLetters, contains, hletter] using or_congr_right ih

end CharSet

namespace Profile

/-- The delimiters of the block regions. -/
def blocks (p : Profile) : List (Delimiter × Delimiter) :=
  (p.regions.filter (!·.singleLine)).map fun r =>
    (.ofPattern r.opening.toList, .ofPattern (r.closing.getD r.opening).toList)

/-- The delimiters of the line regions. -/
def lines (p : Profile) : List Delimiter :=
  (p.regions.filter (·.singleLine)).map fun r => .ofPattern r.opening.toList

def openBrackets (p : Profile) : List Char :=
  p.brackets.flatMap fun b => (Delimiter.ofPattern b.opening.toList).text

def closeBrackets (p : Profile) : List Char :=
  p.brackets.flatMap fun b => (Delimiter.ofPattern b.closing.toList).text

/-- A character that is no white space, in no keyword and no bracket. -/
def Mark (p : Profile) (c : Char) : Prop :=
  Text.isSpace (Text.canon p.caseSensitive c) = false ∧ Keyword.Foreign p.caseSensitive p.words c ∧
    Text.canon p.caseSensitive c ∉
      (p.openBrackets ++ p.closeBrackets).map (Text.canon p.caseSensitive)

instance (p : Profile) (c : Char) : Decidable (p.Mark c) := inferInstanceAs (Decidable (_ ∧ _ ∧ _))

/-- Keywords have at least two characters, all in one line, and every delimiter
begins with a mark. -/
structure Sealing (p : Profile) : Prop where
  words : ∀ w ∈ p.words, 2 ≤ w.length
  newline : Keyword.Foreign p.caseSensitive p.words '\n'
  opening : ∀ d ∈ p.blocks.map Prod.fst ++ p.lines, d.text.head?.any (p.Mark ·) = true
  closing : ∀ d ∈ p.blocks.map Prod.snd, d.text.head?.any (p.Mark ·) = true ∧
    d.text.tail.all (fun c => !Text.isSpace (Text.canon p.caseSensitive c)) = true

instance (p : Profile) : Decidable p.Sealing :=
  decidable_of_iff
    ((∀ w ∈ p.words, 2 ≤ w.length) ∧ Keyword.Foreign p.caseSensitive p.words '\n' ∧
      (∀ d ∈ p.blocks.map Prod.fst ++ p.lines, d.text.head?.any (p.Mark ·) = true) ∧
      ∀ d ∈ p.blocks.map Prod.snd, d.text.head?.any (p.Mark ·) = true ∧
        d.text.tail.all (fun c => !Text.isSpace (Text.canon p.caseSensitive c)) = true)
    ⟨fun ⟨a, b, c, d⟩ => ⟨a, b, c, d⟩, fun ⟨a, b, c, d⟩ => ⟨a, b, c, d⟩⟩

variable {p : Profile}

lemma Mark.of_canon_eq {c d : Char} (h : p.Mark d)
    (hcd : Text.canon p.caseSensitive c = Text.canon p.caseSensitive d) :
    p.Mark c := by
  unfold Mark Keyword.Foreign at *
  rwa [hcd]

lemma Mark.isSpace {c : Char} (h : p.Mark c) : Text.isSpace c = false :=
  Text.isSpace_eq_false_of_canon h.1

/-- What stands inside a region and behind it: it begins with a mark, and it ends with a mark and
characters that are no white space, unless the line or the text ends there. -/
structure Sealed (p : Profile) (inside back : List Char) : Prop where
  first : ∃ c cs, inside = c :: cs ∧ p.Mark c
  last : (∃ front c cs, inside = front ++ c :: cs ∧ p.Mark c ∧ ∀ d ∈ cs, Text.isSpace d = false) ∨
    back.head?.all (· == '\n') = true

/-- A text that is the same as one that begins with a mark begins with a mark. -/
lemma Mark.of_same {a b : List Char} (h : Text.Same p.caseSensitive a b)
    (hb : b.head?.any (p.Mark ·) = true) :
    ∃ c cs, a = c :: cs ∧ p.Mark c ∧ Text.Same p.caseSensitive cs b.tail := by
  rcases b with _ | ⟨d, ds⟩
  · contradiction
  rcases a with _ | ⟨c, cs⟩
  · exact absurd h Text.Same.not_nil_cons
  · have hmark : p.Mark d := by simpa using hb
    obtain ⟨hc, hcs⟩ := Text.Same.cons_iff.mp h
    have hcanon : Text.canon p.caseSensitive c = Text.canon p.caseSensitive d := by
      simpa using Text.same_iff.mp hc
    exact ⟨c, cs, rfl, hmark.of_canon_eq hcanon, hcs⟩

/-- The delimiters of a region seal it off. -/
lemma Sealing.sealed (h : p.Sealing) {inside back : List Char}
    (hdelimits : Regions.Delimits p.caseSensitive p.blocks p.lines inside back) :
    p.Sealed inside back := by
  rcases hdelimits with ⟨d, hd, a, middle, z, rfl, ha, hz⟩ | ⟨d, hd, a, rest, rfl, ha, hback⟩
  · have hopening := h.opening d.1 (List.mem_append_left _ (List.mem_map_of_mem hd))
    obtain ⟨hmark, htail⟩ := h.closing d.2 (List.mem_map_of_mem hd)
    obtain ⟨c, cs, rfl, hc, -⟩ := Mark.of_same ha hopening
    obtain ⟨e, es, rfl, he, hes⟩ := Mark.of_same hz hmark
    refine ⟨⟨c, _, rfl, hc⟩, .inl ⟨_, e, es, rfl, he, hes.isSpace_eq_false fun y hy => ?_⟩⟩
    simpa using List.all_eq_true.mp htail y hy
  · obtain ⟨c, cs, rfl, hc, -⟩ := Mark.of_same ha (h.opening d (List.mem_append_right _ hd))
    exact ⟨⟨c, _, rfl, hc⟩, .inr hback⟩

end Profile

namespace Language

/-- All patterns of a language are the plain ones of a profile. -/
structure Plain (l : Language) (p : Profile) : Prop where
  spells : l.Spells p
  regions : l.regions = .ofDelimiters p.caseSensitive p.blocks p.lines
  opening : l.comprehensions.opening = .one (.ofLetters p.caseSensitive p.openBrackets)
  closing : l.comprehensions.closing = .one (.ofLetters p.caseSensitive p.closeBrackets)

instance (l : Language) (p : Profile) : Decidable (l.Plain p) :=
  decidable_of_iff
    (l.Spells p ∧ l.regions = .ofDelimiters p.caseSensitive p.blocks p.lines ∧
      l.comprehensions.opening = .one (.ofLetters p.caseSensitive p.openBrackets) ∧
      l.comprehensions.closing = .one (.ofLetters p.caseSensitive p.closeBrackets))
    ⟨fun ⟨a, b, c, d⟩ => ⟨a, b, c, d⟩, fun ⟨a, b, c, d⟩ => ⟨a, b, c, d⟩⟩

/-- The brackets of a text, the opening ones first. -/
lemma Plain.bracket_tokens {l : Language} {p : Profile} (hl : l.Plain p) (text : List Char) :
    l.comprehensions.tokens text =
      ((CharSet.ofLetters p.caseSensitive p.openBrackets).spansFrom 0 text).map
        (Span.token .openComprehension) ++
          ((CharSet.ofLetters p.caseSensitive p.closeBrackets).spansFrom 0 text).map
            (Span.token .closeComprehension) := by
  rw [Comprehensions.tokens, hl.opening, hl.closing, ← Pattern.span_matches_one,
    ← Pattern.span_matches_one, List.map_map, List.map_map]
  rfl

end Language

namespace BuiltIn

/-- All built-in profiles compile in the least dialect, to plain languages. -/
lemma plain_profiles : ∀ e ∈ profiles, ∃ l ∈ @Language.compile? .least e.1 e.2, l.Plain e.2 := by
  decide +kernel

lemma get_plain [Dialect] {id : String} {p : Profile} (hp : (id, p) ∈ profiles) :
    ∃ l, Registry.builtIn.get id = .ok l ∧ l.Plain p := by
  obtain ⟨l, hl, hplain⟩ := plain_profiles (id, p) hp
  exact ⟨l, get_eq_compile hp (Language.compile?_of_least hl), hplain⟩

lemma sealing_profiles : ∀ e ∈ profiles, e.2.Sealing := by decide +kernel

end BuiltIn
end BlockHue
