import BlockHue.Proofs.Plain

/-! Words that can be told apart. No keyword of a built-in language, with white space behind it,
begins another one, and behind white space in a keyword stands a keyword again. A keyword in front
of white space is then found as a whole and for its own category only, and none is found where
other words stand. -/
namespace BlockHue

namespace Category

/-- The categories of keywords. -/
def keywords : List Category := [openBlock, closeBlock, neutral]

lemma mem_keywords {c : Category} : c ∈ keywords ↔ c.isKeyword = true := by cases c <;> decide

end Category

namespace Keyword

variable {caseSensitive : Bool} {words : List (List Char)} {rest w : List Char}

lemma closed_cons {c : Char} {cs : List Char} :
    closed (c :: cs) = true ↔ Text.isSpace c = true := by simp [closed]

lemma closed_of_append {a b : List Char} (h : closed (a ++ b) = true) : closed a = true := by
  cases a with
  | nil => rfl
  | cons c cs => exact h

lemma closed_take (h : closed rest = true) (n : Nat) : closed (rest.take n) = true := by
  rw [← List.take_append_drop n rest] at h
  exact closed_of_append h

lemma closed_map_canon (h : closed rest = true) :
    closed (rest.map (Text.canon caseSensitive)) = true := by
  cases rest with
  | nil => rfl
  | cons c cs =>
    rw [closed_cons] at h
    rwa [List.map_cons, closed_cons, Text.canon_eq_self_of_isSpace caseSensitive h]

lemma fits_iff :
    fits caseSensitive rest w = true ↔
      (rest.map (Text.canon caseSensitive)).take w.length = w.map (Text.canon caseSensitive) ∧
        closed (rest.drop w.length) = true := by
  rw [fits, Bool.and_eq_true, decide_eq_true_eq, Text.same_iff, List.map_take]

lemma fits_append_of_same {word : List Char} (h : Text.Same caseSensitive word w)
    (hrest : closed rest = true) :
    fits caseSensitive (word ++ rest) w = true := by
  rw [fits_iff, List.map_append, ← h.length_eq, List.take_left' (by simp), List.drop_left]
  exact ⟨Text.same_iff.mp h, hrest⟩

lemma lengthAt?_eq_none (h : ∀ w ∈ words, ¬ fits caseSensitive rest w = true) :
    lengthAt? (ofWords caseSensitive words) rest = none := by
  rw [lengthAt?_ofWords, List.find?_eq_none.mpr h]
  rfl

/-- A keyword stands in front of a text if one of the words fits and all that fit
have its length. -/
lemma lengthAt?_eq_some {word : List Char} (hne : word ≠ [])
    (hfits : ∃ w ∈ words, fits caseSensitive (word ++ rest) w = true)
    (hlength : ∀ w ∈ words, fits caseSensitive (word ++ rest) w = true → w.length = word.length) :
    lengthAt? (ofWords caseSensitive words) (word ++ rest) = some (Text.width word) := by
  rw [lengthAt?_ofWords]
  cases hfind : words.find? (fits caseSensitive (word ++ rest)) with
  | none =>
    obtain ⟨w, hw, hfit⟩ := hfits
    exact absurd hfit (List.find?_eq_none.mp hfind w hw)
  | some w =>
    have hw := hlength w (List.mem_of_find?_eq_some hfind) (List.find?_some hfind)
    have hpos := Text.width_pos hne
    rw [Option.bind_some, hw, List.take_left, if_neg]
    rw [beq_iff_eq]
    omega

/-- Where no keyword starts in the front part of a text, the search goes on behind it. -/
lemma spansFrom_skip {p : Pattern} {fresh : Bool} {free offset : Nat} {front back : List Char}
    (h : ∀ x y, front = x ++ y → y ≠ [] → freshBehind fresh x = true →
      free ≤ offset + Text.width x →
        lengthAt? p (y ++ back) = none) :
    spansFrom p fresh free offset (front ++ back) =
      spansFrom p (freshBehind fresh front) free (offset + Text.width front) back := by
  induction front generalizing fresh offset with
  | nil => rfl
  | cons c cs ih =>
    have hnone :
        (if fresh && free ≤ offset then lengthAt? p (c :: (cs ++ back)) else none) = none := by
      split
      next hfree =>
        rw [Bool.and_eq_true, decide_eq_true_eq] at hfree
        exact h [] (c :: cs) rfl (by simp) hfree.1 hfree.2
      next => rfl
    have htail : spansFrom p (Text.isSpace c) free (offset + c.utf8Size) (cs ++ back) = _ :=
      ih fun x y hcs hy hfresh hfree =>
        h (c :: x) y (by rw [hcs, List.cons_append]) hy (by rwa [freshBehind_cons])
          (by rwa [Text.width_cons, ← Nat.add_assoc])
    rw [freshBehind_cons, Text.width_cons, ← Nat.add_assoc, ← htail]
    simp only [List.cons_append, spansFrom, hnone]

end Keyword

namespace Profile
open Keyword

/-- The words of a category. -/
def wordsOf (p : Profile) (c : Category) : List (List Char) := (p.keywordsOf c).map String.toList

/-- The words of a category as they are compared. -/
def canonOf (p : Profile) (c : Category) : List (List Char) :=
  (p.wordsOf c).map (·.map (Text.canon p.caseSensitive))

/-- The delimiters that open a region. -/
def openings (p : Profile) : List Delimiter := p.blocks.map Prod.fst ++ p.lines

/-- Keywords that can be told apart wherever white space comes behind them, and from
delimiters and brackets. -/
structure Separate (p : Profile) : Prop where
  /-- A keyword begins with a character that is no white space. -/
  head : ∀ w ∈ p.words, w.head?.any (fun c => !Text.isSpace (Text.canon p.caseSensitive c)) = true
  /-- A keyword with white space behind it begins no other one. -/
  ends : ∀ k ∈ p.words, ∀ w ∈ p.words,
    k.map (Text.canon p.caseSensitive) <+: w.map (Text.canon p.caseSensitive) →
    closed ((w.map (Text.canon p.caseSensitive)).drop k.length) = true → k.length = w.length
  /-- Behind white space in a keyword stands a keyword of its category. -/
  parts : ∀ c ∈ Category.keywords, ∀ k ∈ p.canonOf c, ∀ v ∈ k.tails,
    v.head?.any Text.isSpace = true → v.tail ∈ p.canonOf c
  /-- No word is a keyword of two categories. -/
  apart : ∀ c ∈ Category.keywords, ∀ d ∈ Category.keywords,
    c ≠ d → ∀ k ∈ p.canonOf c, k ∉ p.canonOf d
  delimiters : ∀ d ∈ p.openings,
    d.text.all (fun c => !Text.isSpace (Text.canon p.caseSensitive c)) = true
  brackets : (p.openBrackets ++ p.closeBrackets).all (fun b =>
    !Text.isSpace (Text.canon p.caseSensitive b) &&
      decide (Foreign p.caseSensitive p.words b)) = true

instance (p : Profile) : Decidable p.Separate :=
  decidable_of_iff
    ((∀ w ∈ p.words, w.head?.any (fun c => !Text.isSpace (Text.canon p.caseSensitive c)) = true) ∧
      (∀ k ∈ p.words, ∀ w ∈ p.words,
        k.map (Text.canon p.caseSensitive) <+: w.map (Text.canon p.caseSensitive) →
        closed ((w.map (Text.canon p.caseSensitive)).drop k.length) = true → k.length = w.length) ∧
      (∀ c ∈ Category.keywords, ∀ k ∈ p.canonOf c, ∀ v ∈ k.tails,
        v.head?.any Text.isSpace = true → v.tail ∈ p.canonOf c) ∧
      (∀ c ∈ Category.keywords, ∀ d ∈ Category.keywords,
        c ≠ d → ∀ k ∈ p.canonOf c, k ∉ p.canonOf d) ∧
      (∀ d ∈ p.openings,
        d.text.all (fun c => !Text.isSpace (Text.canon p.caseSensitive c)) = true) ∧
      (p.openBrackets ++ p.closeBrackets).all (fun b =>
        !Text.isSpace (Text.canon p.caseSensitive b) &&
          decide (Foreign p.caseSensitive p.words b)) = true)
    ⟨fun ⟨a, b, c, d, e, f⟩ => ⟨a, b, c, d, e, f⟩, fun ⟨a, b, c, d, e, f⟩ => ⟨a, b, c, d, e, f⟩⟩

variable {p : Profile} {c d : Category} {rest w : List Char}

lemma wordsOf_subset (p : Profile) (c : Category) : p.wordsOf c ⊆ p.words := p.keywordsOf_subset c

lemma mem_words_iff : w ∈ p.words ↔ ∃ c ∈ Category.keywords, w ∈ p.wordsOf c := by
  simp [words, wordsOf, keywordsOf, Category.keywords]

lemma mem_canonOf : w.map (Text.canon p.caseSensitive) ∈ p.canonOf c ↔ ∃ k ∈ p.wordsOf c,
    Text.Same p.caseSensitive w k := by
  simp only [canonOf, List.mem_map, Text.same_iff, eq_comm]

lemma mem_keywords_of_mem_wordsOf (h : w ∈ p.wordsOf c) : c ∈ Category.keywords := by
  cases c <;> simp [wordsOf, keywordsOf, Category.keywords] at h ⊢

/-- In front of white space stands no keyword. -/
lemma Separate.not_fits_of_closed (hp : p.Separate) (hw : w ∈ p.words)
    (hrest : closed rest = true) :
    ¬ fits p.caseSensitive rest w = true := by
  intro h
  have hhead := hp.head w hw
  have htake := (fits_iff.mp h).1
  rcases w with _ | ⟨c, cs⟩
  · contradiction
  rcases rest with _ | ⟨s, rest⟩
  · simp at htake
  · rw [closed_cons] at hrest
    obtain ⟨hs, -⟩ := List.cons.inj htake
    rw [Text.canon_eq_self_of_isSpace _ hrest] at hs
    simp [← hs, hrest] at hhead

/-- Of all keywords just those fit that are the same as the one that stands there. -/
lemma Separate.fits_append_iff (hp : p.Separate) {word k : List Char} (hk : k ∈ p.words)
    (hword : Text.Same p.caseSensitive word k) (hw : w ∈ p.words) (hrest : closed rest = true) :
    fits p.caseSensitive (word ++ rest) w = true ↔ Text.Same p.caseSensitive word w := by
  have hcanon := Text.same_iff.mp hword
  have hlength := hword.length_eq
  constructor
  · intro h
    obtain ⟨htake, hclosed⟩ := fits_iff.mp h
    rw [List.map_append, hcanon] at htake
    rcases Nat.lt_or_ge k.length w.length with hlt | hge
    · rw [List.take_append, List.length_map, List.take_of_length_le (by simp; omega)] at htake
      have hdrop : (w.map (Text.canon p.caseSensitive)).drop k.length =
          (rest.map (Text.canon p.caseSensitive)).take (w.length - k.length) := by
        rw [← htake, List.drop_left' (by simp)]
      have hends := hp.ends k hk w hw ⟨_, htake⟩ (hdrop ▸ closed_take (closed_map_canon hrest) _)
      omega
    · rw [List.take_append_of_le_length (by simpa using hge)] at htake
      rw [List.drop_append_of_le_length (by omega)] at hclosed
      have hdrop : closed ((k.map (Text.canon p.caseSensitive)).drop w.length) = true := by
        rw [← hcanon, ← List.map_drop]
        exact closed_map_canon (closed_of_append hclosed)
      have hends := hp.ends w hw k hk (htake ▸ List.take_prefix _ _) hdrop
      rw [hends, ← List.length_map, List.take_length] at htake
      exact Text.same_iff.mpr (hcanon.trans htake)
  · exact fun h => fits_append_of_same h hrest

/-- A keyword in front of white space is found for its category. -/
lemma Separate.lengthAt?_keyword (hp : p.Separate) {word : List Char}
    (hword : word.map (Text.canon p.caseSensitive) ∈ p.canonOf c) (hrest : closed rest = true) :
    lengthAt? (ofWords p.caseSensitive (p.wordsOf c)) (word ++ rest) = some (Text.width word) := by
  obtain ⟨k, hk, hsame⟩ := mem_canonOf.mp hword
  have hkw := p.wordsOf_subset c hk
  have hiff (w : List Char) (hw : w ∈ p.wordsOf c) :=
    hp.fits_append_iff hkw hsame (p.wordsOf_subset c hw) hrest
  refine lengthAt?_eq_some ?_ ⟨k, hk, (hiff k hk).mpr hsame⟩ fun w hw hfits =>
    ((hiff w hw).mp hfits).length_eq.symm
  rintro rfl
  have hhead := hp.head k hkw
  rcases k with _ | ⟨c, cs⟩
  · contradiction
  · exact Text.Same.not_nil_cons hsame

/-- A keyword in front of white space is not found for another category. -/
lemma Separate.lengthAt?_other (hp : p.Separate) (hne : c ≠ d) {word : List Char}
    (hword : word.map (Text.canon p.caseSensitive) ∈ p.canonOf c) (hrest : closed rest = true) :
    lengthAt? (ofWords p.caseSensitive (p.wordsOf d)) (word ++ rest) = none := by
  obtain ⟨k, hk, hsame⟩ := mem_canonOf.mp hword
  refine lengthAt?_eq_none fun w hw hfits => ?_
  have hword' :=
    (hp.fits_append_iff (p.wordsOf_subset c hk) hsame (p.wordsOf_subset d hw) hrest).mp hfits
  exact hp.apart c (mem_keywords_of_mem_wordsOf hk) d (mem_keywords_of_mem_wordsOf hw) hne _ hword
    (mem_canonOf.mpr ⟨w, hw, hword'⟩)

lemma Separate.lengthAt?_of_closed (hp : p.Separate) (hrest : closed rest = true) :
    lengthAt? (ofWords p.caseSensitive (p.wordsOf c)) rest = none :=
  lengthAt?_eq_none fun _ hw => hp.not_fits_of_closed (p.wordsOf_subset c hw) hrest

/-- What stands behind white space in a keyword is a keyword of its category. -/
lemma Separate.part (hp : p.Separate) {front word : List Char} {s : Char}
    (hs : Text.isSpace s = true)
    (h : (front ++ s :: word).map (Text.canon p.caseSensitive) ∈ p.canonOf c) :
    word.map (Text.canon p.caseSensitive) ∈ p.canonOf c := by
  obtain ⟨k, hk, -⟩ := mem_canonOf.mp h
  refine hp.parts c (mem_keywords_of_mem_wordsOf hk) _ h
    ((s :: word).map (Text.canon p.caseSensitive)) ?_ ?_
  · rw [List.mem_tails, List.map_append]
    exact List.suffix_append _ _
  · simp [Text.canon_eq_self_of_isSpace _ hs, hs]

end Profile

namespace BuiltIn

lemma separate_profiles : ∀ e ∈ profiles, e.2.Separate := by decide +kernel

end BuiltIn
end BlockHue
