import BlockHue.Proofs.Pattern.Read.Literal
import BlockHue.Proofs.Separate

/-! Keywords without special characters. Such a keyword is read as the word that is written,
whatever stands around it, and a word has no white space in it, up to case too. Main statement: the
keywords of a text are the words of the text, between white space, that are one of the keywords. -/
namespace BlockHue
namespace Text

/-- Only white space folds to white space. -/
lemma isSpace_fold {c : Char} (h : isSpace c = false) : isSpace (fold c) = false := by
  have hascii : ∀ n < 128, isSpace (fold (Char.ofNat n)) = isSpace (Char.ofNat n) := by
    decide +kernel
  have hpairs : ∀ e ∈ foldPairs, isSpace (Char.ofNat e.2) = false := by decide +kernel
  have hrules : ∀ r ∈ lowerRules, ∀ s ∈ spaces,
      ¬ (r.target ≤ s ∧ s ≤ r.target + (r.last - r.first)) := by
    decide +kernel
  by_cases hlow : c.toNat < 128
  · have hc := hascii c.toNat hlow
    rwa [Char.ofNat_toNat, h] at hc
  · rw [fold, if_neg hlow]
    split
    next n hn =>
      obtain ⟨a, b, hsplit, -⟩ := List.lookup_eq_some_iff.mp hn
      exact hpairs (c.toNat, n) (by rw [hsplit]; simp)
    next =>
      rw [lowerSimple, if_neg hlow]
      split
      next n hn =>
        obtain ⟨r, hr, himage⟩ := List.exists_of_findSome?_eq_some hn
        rw [CaseRule.image?] at himage
        split at himage
        next hrange =>
          simp only [Bool.and_eq_true, decide_eq_true_eq] at hrange
          obtain rfl := Option.some.inj himage
          rw [Bool.eq_false_iff]
          intro hspace
          have hmem := toNat_mem_spaces hspace
          rw [Char.toNat_ofNat] at hmem
          split at hmem
          · exact hrules r hr _ hmem (by omega)
          · revert hmem
            decide
        next => cases himage
      next => exact h

lemma isSpace_canon (caseSensitive : Bool) {c : Char} (h : isSpace c = false) :
    isSpace (canon caseSensitive c) = false := by
  cases caseSensitive with
  | true => exact h
  | false => exact isSpace_fold h

def Solid (w : List Char) : Prop := ∀ c ∈ w, isSpace c = false

lemma Solid.of_same {caseSensitive : Bool} {a b : List Char} (hb : Solid b)
    (h : Same caseSensitive a b) : Solid a :=
  h.isSpace_eq_false fun c hc => isSpace_canon caseSensitive (hb c hc)

end Text

namespace Keyword
open Pattern Pattern.Read

variable {caseSensitive : Bool} {words : List (List Char)} {front w back : List Char}

/-- A keyword that is written as it is. -/
structure Literal (w : List Char) : Prop where
  ne_nil : w ≠ []
  solid : Text.Solid w
  plain : ∀ c ∈ w, c ∉ specials

instance (w : List Char) : Decidable (Literal w) :=
  decidable_of_iff (w ≠ [] ∧ w.all (fun c => !Text.isSpace c) = true ∧
    w.all (fun c => !specials.contains c) = true)
    ⟨fun ⟨hne, hsolid, hplain⟩ => ⟨hne, by simpa [Text.Solid] using hsolid, by simpa using hplain⟩,
      fun ⟨hne, hsolid, hplain⟩ => ⟨hne, by simpa [Text.Solid] using hsolid, by simpa using hplain⟩⟩

/-- Keywords without special characters are read as the words that are written. -/
lemma pattern?_literal [Dialect] {keywords : List String} {p : Pattern}
    (h : ∀ k ∈ keywords, ∀ c ∈ k.toList, c ∉ specials)
    (hp : pattern? caseSensitive keywords = some p) :
    p = ofWords caseSensitive (keywords.map String.toList) := by
  unfold pattern? readAll? at hp
  split at hp
  next hempty =>
    rw [List.isEmpty_iff.mp hempty]
    exact (Option.some.inj hp).symm
  next hne =>
    obtain ⟨-, hp⟩ := read?_eq_some_iff.mp hp
    obtain ⟨final, hfinal, -, -, rfl⟩ := parse?_eq_some_iff.mp hp
    have hnil : keywords.map String.toList ≠ [] := by simpa using hne
    have hplain : ∀ w ∈ keywords.map String.toList, ∀ c ∈ w, c ∉ specials := by
      intro w hw
      obtain ⟨k, hk, rfl⟩ := List.mem_map.mp hw
      exact h k hk
    have hdenotes : List.Forall₂ (Denotes caseSensitive 0) (keywords.map String.toList)
        ((keywords.map String.toList).map (word caseSensitive)) := by
      rw [List.forall₂_map_right_iff, List.forall₂_same]
      exact fun w hw => denotes_literal (literal?_of_plain (hplain w hw))
    obtain ⟨level, hpattern, -, hreads⟩ := denotes_alternation hnil hdenotes
    obtain ⟨n, -, hreads⟩ := hreads [openFrame !caseSensitive] [groupName]
    obtain ⟨st, hst, hbounded, -⟩ := steps_closeFrame (!caseSensitive) 0 level [groupName]
    have hall :=
      steps_openFrame (!caseSensitive) (0 + 7 + n) (alternation (keywords.map String.toList))
    rw [hreads, hst] at hall
    have hmore := steps_mono hfinal (Nat.le_add_right _ (0 + 7 + n + 2))
    rw [steps_mono hall (Nat.le_add_left _ _)] at hmore
    obtain rfl := Option.some.inj hmore
    rw [hbounded, hpattern]
    cases hwords : keywords.map String.toList with
    | nil => contradiction
    | cons w words => rfl

/-- A word of a text: characters other than white space, all that stand side by side. -/
structure Run (front w back : List Char) : Prop where
  ne_nil : w ≠ []
  solid : Text.Solid w
  fresh : fresh front = true
  closed : closed back = true

lemma takeWhile_solid (hw : Text.Solid w) (hback : closed back = true) :
    (w ++ back).takeWhile (fun c => !Text.isSpace c) = w := by
  rw [List.takeWhile_append_of_pos fun c hc => by simp [hw c hc]]
  cases back with
  | nil => simp
  | cons c cs => simp [closed_cons.mp hback]

/-- In front of a word of the text just those keywords fit that are the same as the word. -/
lemma Run.fits_iff_same (h : Run front w back) {v : List Char} (hv : Text.Solid v) :
    fits caseSensitive (w ++ back) v = true ↔ Text.Same caseSensitive w v := by
  refine ⟨fun hfits => ?_, fun hsame => fits_append_of_same hsame h.closed⟩
  rw [fits, Bool.and_eq_true, decide_eq_true_eq] at hfits
  obtain ⟨hsame, hclosed⟩ := hfits
  have htake := takeWhile_solid (hv.of_same hsame) hclosed
  rw [List.take_append_drop, takeWhile_solid h.solid h.closed] at htake
  rwa [← htake] at hsame

lemma Run.lengthAt? (h : Run front w back) (hwords : ∀ v ∈ words, Text.Solid v)
    (hword : ∃ v ∈ words, Text.Same caseSensitive w v) :
    lengthAt? (ofWords caseSensitive words) (w ++ back) = some (Text.width w) := by
  obtain ⟨v, hv, hsame⟩ := hword
  refine lengthAt?_eq_some h.ne_nil ⟨v, hv, (h.fits_iff_same (hwords v hv)).mpr hsame⟩
    fun u hu hfits => ?_
  exact ((h.fits_iff_same (hwords u hu)).mp hfits).length_eq.symm

/-- A text without white space ends where another word of the text starts, or before. -/
lemma width_le_of_fresh {pre taken rest : List Char} (htaken : Text.Solid taken) (hne : front ≠ [])
    (hfresh : fresh (pre ++ front) = true) (h : taken ++ rest = front ++ back) :
    Text.width taken ≤ Text.width front := by
  rcases List.append_eq_append_iff.mp h with ⟨more, rfl, -⟩ | ⟨more, rfl, -⟩
  · simp
  · obtain ⟨init, d, rfl⟩ := List.eq_nil_or_concat' front |>.resolve_left hne
    rw [← List.append_assoc, fresh_append_singleton] at hfresh
    have hd := htaken d (by simp)
    rw [hfresh] at hd
    contradiction

/-- The search comes to every word of the text that is one of the keywords, since what it finds
before ends before. -/
lemma mem_spansFrom_of_run (hwords : ∀ v ∈ words, Text.Solid v) {pre : List Char} {free : Nat}
    (h : Run (pre ++ front) w back) (hword : ∃ v ∈ words, Text.Same caseSensitive w v)
    (hfree : free ≤ Text.width (pre ++ front)) :
    ⟨Text.width (pre ++ front), Text.width (pre ++ front) + Text.width w⟩ ∈
      spansFrom (ofWords caseSensitive words) (fresh pre) free (Text.width pre)
        (front ++ (w ++ back)) := by
  induction front generalizing pre free with
  | nil =>
    rw [List.append_nil] at h hfree ⊢
    obtain ⟨c, cs, rfl⟩ := List.exists_cons_of_ne_nil h.ne_nil
    have hlength := h.lengthAt? hwords hword
    rw [List.cons_append] at hlength
    simp [spansFrom, h.fresh, hfree, hlength]
  | cons c cs ih =>
    have hpre : pre ++ c :: cs = pre ++ [c] ++ cs := by simp
    have hwidth : Text.width pre + c.utf8Size = Text.width (pre ++ [c]) := by simp
    rw [List.cons_append]
    simp only [spansFrom, hwidth, ← fresh_append_singleton pre c]
    split
    next n hn =>
      split at hn
      next =>
        obtain ⟨v, hv, taken, rest, hsame, hrest, -, rfl⟩ := word_of_lengthAt? hn
        have hle := width_le_of_fresh ((hwords v hv).of_same hsame) (List.cons_ne_nil c cs)
          h.fresh hrest.symm
        rw [hpre] at h ⊢
        refine List.mem_cons_of_mem _ (ih h ?_)
        rw [← hpre, Text.width_append]
        omega
      next => contradiction
    next =>
      rw [hpre] at h hfree ⊢
      exact ih h hfree

lemma mem_spans_iff (hwords : ∀ v ∈ words, Text.Solid v) {text : List Char} {s : Span} :
    s ∈ spans (ofWords caseSensitive words) text ↔
      ∃ front w back, text = front ++ w ++ back ∧ Run front w back ∧
        (∃ v ∈ words, Text.Same caseSensitive w v) ∧
        s = ⟨Text.width front, Text.width front + Text.width w⟩ := by
  constructor
  · intro hs
    obtain ⟨front, rest, hfound⟩ := found_of_mem_spans hs
    obtain ⟨w, back, htext, hstop, ⟨v, hv, hsame⟩, hfresh, hclosed⟩ := hfound.stands
    have hspan : s = ⟨Text.width front, Text.width front + Text.width w⟩ := by
      rw [← Text.width_append, ← hstop, ← hfound.start]
    refine ⟨front, w, back, htext, ⟨?_, (hwords v hv).of_same hsame, hfresh, hclosed⟩,
      ⟨v, hv, hsame⟩, hspan⟩
    rintro rfl
    have hlt := hfound.start_lt_stop
    simp [hspan] at hlt
  · rintro ⟨front, w, back, rfl, hrun, hword, rfl⟩
    rw [List.append_assoc]
    rw [← List.nil_append front] at hrun
    exact mem_spansFrom_of_run hwords hrun hword (Nat.zero_le _)

end Keyword

namespace Language
open Keyword

variable {caseSensitive : Bool} {keywords : List String} {p : Pattern}

/-- The keywords of a text are the words of the text that are one of the keywords, up to case unless
case counts, from left to right and with their places and lengths in bytes. -/
theorem literal_keywords_are_words [Dialect] (hp : Keyword.pattern? caseSensitive keywords = some p)
    (hliteral : ∀ k ∈ keywords, Literal k.toList) (category : Category) (text : List Char) :
    (keywordTokens p category text).Pairwise (fun a b => a.stop ≤ b.start) ∧
      ∀ t, t ∈ keywordTokens p category text ↔
        t.category = category ∧ ∃ front w back, text = front ++ w ++ back ∧ Run front w back ∧
          (∃ k ∈ keywords, Text.Same caseSensitive w k.toList) ∧ t.start = Text.width front ∧
            t.length = Text.width w := by
  obtain rfl := pattern?_literal (fun k hk => (hliteral k hk).plain) hp
  have hsolid : ∀ v ∈ keywords.map String.toList, Text.Solid v := by
    intro v hv
    obtain ⟨k, hk, rfl⟩ := List.mem_map.mp hv
    exact (hliteral k hk).solid
  refine ⟨keywordTokens_pairwise _ category text, fun t => ⟨fun ht => ?_, ?_⟩⟩
  · obtain ⟨s, hs, rfl⟩ := List.mem_map.mp ht
    obtain ⟨front, w, back, htext, hrun, ⟨v, hv, hsame⟩, rfl⟩ := (mem_spans_iff hsolid).mp hs
    obtain ⟨k, hk, rfl⟩ := List.mem_map.mp hv
    exact ⟨rfl, front, w, back, htext, hrun, ⟨k, hk, hsame⟩, rfl, by simp [Span.length]⟩
  · rintro ⟨rfl, front, w, back, htext, hrun, ⟨k, hk, hsame⟩, hstart, hlength⟩
    have hs := (mem_spans_iff hsolid).mpr
      ⟨front, w, back, htext, hrun, ⟨k.toList, List.mem_map_of_mem hk, hsame⟩, rfl⟩
    apply List.mem_map.mpr
    refine ⟨_, hs, ?_⟩
    rw [← hstart, ← hlength]
    simp [Span.length]

open scoped Dialect.Standard

/-- One keyword begins another one and stands in the list twice, and one is found as a
letter with more bytes. -/
theorem prefixed_keywords_are_words :
    ∃ p, Keyword.pattern? false ["do", "done", "k", "do"] = some p ∧
      (∀ k ∈ ["do", "done", "k", "do"], Literal k.toList) ∧
      ∀ t : Token, t ∈ [⟨0, 4, .neutral⟩, ⟨5, 3, .neutral⟩, ⟨13, 2, .neutral⟩] ↔
        t.category = .neutral ∧ ∃ front w back, "Done \u212a\tdok do".toList = front ++ w ++ back ∧
          Run front w back ∧
          (∃ k ∈ ["do", "done", "k", "do"], Text.Same false w k.toList) ∧
            t.start = Text.width front ∧
          t.length = Text.width w := by
  have hmap : (Keyword.pattern? false ["do", "done", "k", "do"]).map
      (keywordTokens · .neutral "Done \u212a\tdok do".toList) =
        some [⟨0, 4, .neutral⟩, ⟨5, 3, .neutral⟩, ⟨13, 2, .neutral⟩] := by
    decide +kernel
  have hliteral : ∀ k ∈ ["do", "done", "k", "do"], Literal k.toList := by decide +kernel
  obtain ⟨p, hp, htokens⟩ := Option.map_eq_some_iff.mp hmap
  obtain ⟨-, hwords⟩ := literal_keywords_are_words hp hliteral .neutral "Done \u212a\tdok do".toList
  rw [htokens] at hwords
  exact ⟨p, hp, hliteral, hwords⟩

end Language
end BlockHue
