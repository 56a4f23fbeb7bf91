import BlockHue.Proofs.Separate

/-! Lines with one keyword. A line holds a keyword of its category behind spaces and tabs, and words
behind it that are no keywords. Main statement: of each category just the keywords of its own lines
are found, and no line opens a region or has a bracket. -/
namespace BlockHue

namespace Text

/-- Spaces and tabs. -/
def isBlanks (cs : List Char) : Bool := cs.all fun c => c == ' ' || c == '\t'

lemma isSpace_of_isBlanks {cs : List Char} (h : isBlanks cs = true) :
    ∀ c ∈ cs, isSpace c = true := by
  intro c hc
  have hblank := List.all_eq_true.mp h c hc
  rw [Bool.or_eq_true, beq_iff_eq, beq_iff_eq] at hblank
  rcases hblank with rfl | rfl <;> decide

end Text

namespace Keyword

/-- A text without white space in a text with white space in it stands in one of the parts. -/
lemma infix_of_infix_append {d a b : List Char} (hd : ∀ c ∈ d, Text.isSpace c = false)
    (hb : closed b = true) (h : d <:+: a ++ b) : d <:+: a ∨ d <:+: b := by
  obtain ⟨x, z, hxz⟩ := h
  rcases List.append_eq_append_iff.mp hxz with ⟨as, rfl, -⟩ | ⟨bs, hx, rfl⟩
  · exact .inl ⟨x, as, rfl⟩
  · rcases List.append_eq_append_iff.mp hx with ⟨as, rfl, rfl⟩ | ⟨cs, -, rfl⟩
    · rcases bs with _ | ⟨s, bs⟩
      · exact .inl ⟨x, [], by simp⟩
      · rw [List.cons_append, closed_cons, hd s (by simp)] at hb
        contradiction
    · exact .inr ⟨cs, z, rfl⟩

lemma infix_of_infix_space {d a b : List Char} (hne : d ≠ []) (hd : ∀ c ∈ d, Text.isSpace c = false)
    (ha : ∀ c ∈ a, Text.isSpace c = true) (h : d <:+: a ++ b) : d <:+: b := by
  induction a with
  | nil => exact h
  | cons s a ih =>
    rcases List.infix_cons_iff.mp h with ⟨z, hz⟩ | h
    · rcases d with _ | ⟨c, d⟩
      · contradiction
      · obtain ⟨rfl, -⟩ := List.cons.inj hz
        have hspace := ha c (by simp)
        rw [hd c (by simp)] at hspace
        contradiction
    · exact ih (fun c hc => ha c (List.mem_cons_of_mem s hc)) h

end Keyword

namespace Profile
open Keyword

/-- A text without brackets that opens no region. -/
def Clear (p : Profile) (text : List Char) : Prop :=
  (∀ d ∈ p.openings,
    ¬ d.text.map (Text.canon p.caseSensitive) <:+: text.map (Text.canon p.caseSensitive)) ∧
    text.all (fun c => decide (Text.canon p.caseSensitive c ∉
      (p.openBrackets ++ p.closeBrackets).map (Text.canon p.caseSensitive))) = true

instance (p : Profile) (text : List Char) : Decidable (p.Clear text) :=
  inferInstanceAs (Decidable (_ ∧ _))

/-- A word that is no keyword, opens no region and has no bracket. -/
structure Filler (p : Profile) (word : List Char) : Prop where
  ne_nil : word ≠ []
  solid : word.all (!Text.isSpace ·) = true
  foreign : ∀ k ∈ p.words, ¬ Text.Same p.caseSensitive word k
  clear : p.Clear word

instance (p : Profile) (word : List Char) : Decidable (p.Filler word) :=
  decidable_of_iff
    (word ≠ [] ∧ word.all (!Text.isSpace ·) = true ∧
      (∀ k ∈ p.words, ¬ Text.Same p.caseSensitive word k) ∧ p.Clear word)
    ⟨fun ⟨a, b, c, d⟩ => ⟨a, b, c, d⟩, fun ⟨a, b, c, d⟩ => ⟨a, b, c, d⟩⟩

variable {p : Profile} {c : Category}

lemma Filler.isSpace {word : List Char} (h : p.Filler word) :
    ∀ c ∈ word, Text.isSpace c = false := by
  intro c hc
  simpa using List.all_eq_true.mp h.solid c hc

lemma opening_ne_nil (hs : p.Sealing) {d : Delimiter} (hd : d ∈ p.openings) : d.text ≠ [] := by
  have hmark := hs.opening d hd
  rintro h
  simp [h] at hmark

lemma Separate.isSpace_opening (hp : p.Separate) {d : Delimiter} (hd : d ∈ p.openings) :
    ∀ c ∈ d.text.map (Text.canon p.caseSensitive), Text.isSpace c = false := by
  intro c hc
  obtain ⟨b, hb, rfl⟩ := List.mem_map.mp hc
  simpa using List.all_eq_true.mp (hp.delimiters d hd) b hb

lemma clear_nil (hs : p.Sealing) : p.Clear [] := by
  refine ⟨fun d hd h => ?_, rfl⟩
  rw [List.map_nil, List.infix_nil, List.map_eq_nil_iff] at h
  exact opening_ne_nil hs hd h

lemma Clear.append (hp : p.Separate) {a b : List Char} (ha : p.Clear a) (hb : p.Clear b)
    (hclosed : closed b = true) :
    p.Clear (a ++ b) := by
  refine ⟨fun d hd h => ?_, by rw [List.all_append, ha.2, hb.2]; rfl⟩
  rw [List.map_append] at h
  rcases infix_of_infix_append (hp.isSpace_opening hd) (closed_map_canon hclosed) h with h | h
  · exact ha.1 d hd h
  · exact hb.1 d hd h

lemma Clear.space_append (hp : p.Separate) (hs : p.Sealing) {a b : List Char}
    (ha : ∀ c ∈ a, Text.isSpace c = true) (hb : p.Clear b) : p.Clear (a ++ b) := by
  have hmap : a.map (Text.canon p.caseSensitive) = a := by
    rw [List.map_congr_left fun c hc => Text.canon_eq_self_of_isSpace p.caseSensitive (ha c hc),
      List.map_id']
  refine ⟨fun d hd h => ?_, ?_⟩
  · rw [List.map_append, hmap] at h
    refine hb.1 d hd (infix_of_infix_space ?_ (hp.isSpace_opening hd) ha h)
    exact fun h => opening_ne_nil hs hd (List.map_eq_nil_iff.mp h)
  · rw [List.all_append, hb.2, Bool.and_true, List.all_eq_true]
    intro c hc
    rw [decide_eq_true_eq]
    intro hmem
    obtain ⟨b, hb, hbc⟩ := List.mem_map.mp hmem
    have hbracket := List.all_eq_true.mp hp.brackets b hb
    rw [hbc, Text.canon_eq_self_of_isSpace _ (ha c hc), ha c hc] at hbracket
    contradiction

/-- A keyword opens no region and has no bracket. -/
lemma Separate.clear_keyword (hp : p.Separate) (hs : p.Sealing) {word : List Char}
    (hword : word.map (Text.canon p.caseSensitive) ∈ p.canonOf c) : p.Clear word := by
  obtain ⟨k, hk, hsame⟩ := mem_canonOf.mp hword
  have hk := p.wordsOf_subset c hk
  refine ⟨fun d hd h => ?_, List.all_eq_true.mpr fun c hc => decide_eq_true fun hmem => ?_⟩
  · obtain ⟨m, ms, htext, hmark, -⟩ := Mark.of_same (Text.same_iff.mpr rfl) (hs.opening d hd)
    rw [htext, Text.same_iff.mp hsame] at h
    exact hmark.2.1 k hk (h.subset (by simp))
  · obtain ⟨b, hb, hbc⟩ := List.mem_map.mp hmem
    have hbracket := List.all_eq_true.mp hp.brackets b hb
    rw [Bool.and_eq_true, decide_eq_true_eq] at hbracket
    refine hbracket.2 k hk ?_
    rw [hbc, ← Text.same_iff.mp hsame]
    exact List.mem_map_of_mem hc

/-- A keyword that fits words that are no keywords goes beyond the first of them, and its part
behind fits what follows. -/
lemma Separate.fits_behind (hp : p.Separate) {word rest w : List Char} (hword : p.Filler word)
    (hrest : closed rest = true) (hw : w ∈ p.words)
    (h : fits p.caseSensitive (word ++ rest) w = true) :
    ∃ s more, rest = s :: more ∧ s ∈ w.map (Text.canon p.caseSensitive) ∧
      ∃ v ∈ p.words, fits p.caseSensitive more v = true := by
  obtain ⟨htake, hclosed⟩ := fits_iff.mp h
  rw [List.map_append] at htake
  rcases Nat.lt_trichotomy w.length word.length with hlt | heq | hgt
  · rw [List.drop_append_of_le_length hlt.le, List.drop_eq_getElem_cons hlt, List.cons_append,
      closed_cons, hword.isSpace _ (List.getElem_mem hlt)] at hclosed
    contradiction
  · rw [List.take_left' (by simp [heq])] at htake
    exact absurd (Text.same_iff.mpr htake) (hword.foreign w hw)
  · have hlength := congrArg List.length htake
    rcases rest with _ | ⟨s, more⟩
    · simp at hlength
      omega
    · obtain ⟨n, hn⟩ : ∃ n, w.length = word.length + (n + 1) :=
        ⟨w.length - word.length - 1, by omega⟩
      rw [closed_cons] at hrest
      have hsplit : w.map (Text.canon p.caseSensitive) =
          (word ++ s :: more.take n).map (Text.canon p.caseSensitive) := by
        rw [← htake, hn, List.map_append, ← List.length_map (f := Text.canon p.caseSensitive),
          List.take_length_add_append]
        simp
      have hs : Text.canon p.caseSensitive s = s := Text.canon_eq_self_of_isSpace _ hrest
      refine ⟨s, more, rfl, by simp [hsplit, hs], ?_⟩
      obtain ⟨c, -, hwc⟩ := mem_words_iff.mp hw
      have hpart : (more.take n).map (Text.canon p.caseSensitive) ∈ p.canonOf c :=
        hp.part hrest (mem_canonOf.mpr ⟨w, hwc, Text.same_iff.mpr hsplit.symm⟩)
      obtain ⟨v, hv, hsame⟩ := mem_canonOf.mp hpart
      have hlength' : v.length = n := by
        rw [← hsame.length_eq, List.length_take]
        simp at hlength
        omega
      refine ⟨v, p.wordsOf_subset c hv, ?_⟩
      rw [hn, List.drop_length_add_append, List.drop_succ_cons] at hclosed
      rw [fits_iff, hlength', ← List.map_take, Text.same_iff.mp hsame]
      exact ⟨rfl, hclosed⟩

end Profile

namespace Document

/-- Words that are no keywords, each behind spaces and tabs. -/
def Fillers (p : Profile) (filler : List (List Char × List Char)) : Prop :=
  ∀ f ∈ filler, f.1 ≠ [] ∧ Text.isBlanks f.1 = true ∧ p.Filler f.2

instance (p : Profile) (filler : List (List Char × List Char)) : Decidable (Fillers p filler) :=
  inferInstanceAs (Decidable (∀ f ∈ filler, _))

/-- A line with one keyword of a category and words behind it, each with the blanks
in front of it. -/
structure Line (p : Profile) (c : Category) where
  indent : List Char
  keyword : List Char
  filler : List (List Char × List Char)
  trailing : List Char
  indent_blank : Text.isBlanks indent = true
  keyword_mem : ∃ k ∈ p.keywordsOf c, Text.Same p.caseSensitive keyword k.toList
  filler_words : Fillers p filler
  trailing_blank : Text.isBlanks trailing = true

namespace Line
open Keyword

/-- The text of the words behind a keyword. -/
def fillerText (filler : List (List Char × List Char)) : List Char :=
  filler.flatMap fun f => f.1 ++ f.2

def text {p : Profile} {c : Category} (line : Line p c) : List Char :=
  line.indent ++ (line.keyword ++ (fillerText line.filler ++ line.trailing))

variable {p : Profile} {c d : Category} {filler : List (List Char × List Char)} {back : List Char}

lemma fillerText_cons (gap word : List Char) :
    fillerText ((gap, word) :: filler) = gap ++ (word ++ fillerText filler) := by
  rw [fillerText, List.flatMap_cons, List.append_assoc]
  rfl

lemma closed_of_isSpace {gap : List Char} (h : ∀ c ∈ gap, Text.isSpace c = true) (hne : gap ≠ [])
    (rest : List Char) :
    closed (gap ++ rest) = true := by
  rcases gap with _ | ⟨s, gap⟩
  · exact absurd rfl hne
  · exact closed_cons.mpr (h s List.mem_cons_self)

lemma closed_fillerText (hfiller : Fillers p filler) (hback : closed back = true) :
    closed (fillerText filler ++ back) = true := by
  rcases filler with _ | ⟨⟨gap, word⟩, filler⟩
  · exact hback
  · obtain ⟨hne, hgap, -⟩ := hfiller _ List.mem_cons_self
    rw [fillerText_cons, List.append_assoc]
    exact closed_of_isSpace (Text.isSpace_of_isBlanks hgap) hne _

/-- White space that no keyword goes on behind: a line end, or other white space and the end. -/
def Seam (back : List Char) : Prop :=
  closed back = true ∧ (back.head? = some '\n' ∨ closed back.tail = true)

lemma seam_trailing {trailing tail : List Char} (h : Text.isBlanks trailing = true)
    (htail : tail.head?.all (· == '\n') = true) : Seam (trailing ++ tail) := by
  have hclosed : closed tail = true := by
    rcases tail with _ | ⟨s, tail⟩
    · rfl
    · obtain rfl : s = '\n' := by simpa using htail
      exact closed_cons.mpr (by decide)
  rcases trailing with _ | ⟨s, trailing⟩
  · refine ⟨hclosed, ?_⟩
    rcases tail with _ | ⟨s, tail⟩
    · exact .inr rfl
    · exact .inl (by simpa using htail)
  · refine ⟨closed_of_isSpace (Text.isSpace_of_isBlanks h) (by simp) _, .inr ?_⟩
    rcases trailing with _ | ⟨s', trailing⟩
    · exact hclosed
    · exact closed_cons.mpr (Text.isSpace_of_isBlanks h s' (by simp))

/-- No keyword stands where a word stands that is none. -/
lemma not_fits_filler (hp : p.Separate) (hs : p.Sealing) {word w : List Char}
    (hword : p.Filler word) (hfiller : Fillers p filler) (hback : Seam back) (hw : w ∈ p.words) :
    ¬ fits p.caseSensitive (word ++ (fillerText filler ++ back)) w = true := by
  induction filler generalizing word w with
  | nil =>
    intro h
    obtain ⟨s, more, hrest, hmem, v, hv, hfits⟩ := hp.fits_behind hword hback.1 hw h
    obtain rfl : back = s :: more := hrest
    rcases hback.2 with hnewline | hclosed
    · obtain rfl : s = '\n' := by simpa using hnewline
      exact hs.newline w hw (by rwa [Text.canon_eq_self_of_isSpace _ (by decide)])
    · exact hp.not_fits_of_closed hv hclosed hfits
  | cons f filler ih =>
    intro h
    obtain ⟨hf, hfiller'⟩ := List.forall_mem_cons.mp hfiller
    obtain ⟨s, more, hrest, -, v, hv, hfits⟩ :=
      hp.fits_behind hword (closed_fillerText hfiller hback.1) hw h
    rcases f with ⟨gap, next⟩
    obtain ⟨hne, hgap, hnext⟩ := hf
    rw [fillerText_cons, List.append_assoc, List.append_assoc] at hrest
    rcases gap with _ | ⟨s, _ | ⟨s', gap⟩⟩
    · contradiction
    · obtain ⟨rfl, rfl⟩ := List.cons.inj hrest
      exact ih hnext hfiller' hv hfits
    · obtain ⟨rfl, rfl⟩ := List.cons.inj hrest
      exact hp.not_fits_of_closed hv (closed_cons.mpr (Text.isSpace_of_isBlanks hgap s' (by simp)))
        hfits

/-- No keyword starts in white space. -/
lemma spansFrom_space (hp : p.Separate) {gap : List Char} (h : ∀ c ∈ gap, Text.isSpace c = true)
    (fresh : Bool) (offset : Nat) (rest : List Char) :
    spansFrom (ofWords p.caseSensitive (p.wordsOf d)) fresh 0 offset (gap ++ rest) =
      spansFrom (ofWords p.caseSensitive (p.wordsOf d)) (freshBehind fresh gap) 0
        (offset + Text.width gap) rest := by
  refine spansFrom_skip fun x y hxy hne _ _ =>
    hp.lengthAt?_of_closed (closed_of_isSpace (fun c hc => h c ?_) hne _)
  exact hxy ▸ List.mem_append_right x hc

/-- No keyword starts in a word that is none. -/
lemma spansFrom_word (hp : p.Separate) (hs : p.Sealing) {word : List Char} (hword : p.Filler word)
    (hfiller : Fillers p filler) (hback : Seam back) (fresh : Bool) (offset : Nat) :
    spansFrom (ofWords p.caseSensitive (p.wordsOf d)) fresh 0 offset
      (word ++ (fillerText filler ++ back)) =
      spansFrom (ofWords p.caseSensitive (p.wordsOf d)) (freshBehind fresh word) 0
        (offset + Text.width word)
        (fillerText filler ++ back) := by
  refine spansFrom_skip fun x y hxy _ hfresh _ => ?_
  rcases x with _ | ⟨c, x⟩
  · obtain rfl : word = y := hxy
    exact lengthAt?_eq_none fun w hw =>
      not_fits_filler hp hs hword hfiller hback (p.wordsOf_subset d hw)
  · have hfalse : freshBehind fresh (c :: x) = false :=
      freshBehind_eq_false (by simp) fun b hb => hword.isSpace b (hxy ▸ List.mem_append_left y hb)
    rw [hfalse] at hfresh
    contradiction

lemma spansFrom_filler (hp : p.Separate) (hs : p.Sealing) (hfiller : Fillers p filler)
    (hback : Seam back) (fresh : Bool) (offset : Nat) :
    spansFrom (ofWords p.caseSensitive (p.wordsOf d)) fresh 0 offset (fillerText filler ++ back) =
      spansFrom (ofWords p.caseSensitive (p.wordsOf d)) (freshBehind fresh (fillerText filler)) 0
        (offset + Text.width (fillerText filler)) back := by
  induction filler generalizing fresh offset with
  | nil => rfl
  | cons f filler ih =>
    rcases f with ⟨gap, word⟩
    obtain ⟨⟨-, hgap, hword⟩, hfiller'⟩ := List.forall_mem_cons.mp hfiller
    rw [fillerText_cons, List.append_assoc, List.append_assoc,
      spansFrom_space hp (Text.isSpace_of_isBlanks hgap), spansFrom_word hp hs hword hfiller' hback,
        ih hfiller']
    simp only [freshBehind_append, Text.width_append, Nat.add_assoc]

/-- The keyword is found where it stands, for its category. -/
lemma spansFrom_keyword (hp : p.Separate) {word rest : List Char}
    (hword : word.map (Text.canon p.caseSensitive) ∈ p.canonOf c) (hrest : closed rest = true)
    (offset : Nat) :
    spansFrom (ofWords p.caseSensitive (p.wordsOf c)) true 0 offset (word ++ rest) =
      ⟨offset, offset + Text.width word⟩ ::
        spansFrom (ofWords p.caseSensitive (p.wordsOf c)) (freshBehind true word) 0
          (offset + Text.width word) rest := by
  have hlength := hp.lengthAt?_keyword hword hrest
  have hpos := lengthAt?_pos hlength
  rcases word with _ | ⟨b, word⟩
  · simp at hpos
  · have hwidth : offset + b.utf8Size + Text.width word = offset + Text.width (b :: word) := by
      rw [Text.width_cons, Nat.add_assoc]
    have hskip :
        spansFrom (ofWords p.caseSensitive (p.wordsOf c)) (Text.isSpace b)
          (offset + Text.width (b :: word))
        (offset + b.utf8Size) (word ++ rest) =
          spansFrom (ofWords p.caseSensitive (p.wordsOf c)) (freshBehind (Text.isSpace b) word) 0
            (offset + Text.width (b :: word)) rest := by
      rw [← spansFrom_of_free_le (le_refl (offset + Text.width (b :: word))), ← hwidth]
      refine spansFrom_skip fun x y hxy hne _ hfree => ?_
      have hy := Text.width_pos hne
      rw [hxy, Text.width_append] at hfree
      omega
    rw [List.cons_append] at hlength ⊢
    simp only [Keyword.spansFrom, hlength, Nat.zero_le, decide_true, Bool.and_self, if_true, hskip,
      freshBehind_cons]

/-- The keyword is not found for another category, and neither is a part of it. -/
lemma spansFrom_other (hp : p.Separate) (hne : c ≠ d) {word rest : List Char}
    (hword : word.map (Text.canon p.caseSensitive) ∈ p.canonOf c) (hrest : closed rest = true)
    (offset : Nat) :
    spansFrom (ofWords p.caseSensitive (p.wordsOf d)) true 0 offset (word ++ rest) =
      spansFrom (ofWords p.caseSensitive (p.wordsOf d)) (freshBehind true word) 0
        (offset + Text.width word) rest := by
  refine spansFrom_skip fun x y hxy _ hfresh _ => ?_
  rcases List.eq_nil_or_concat x with rfl | ⟨x, s, rfl⟩
  · obtain rfl : word = y := hxy
    exact hp.lengthAt?_other hne hword hrest
  · have hspace : Text.isSpace s = true := by simpa [freshBehind] using hfresh
    rw [hxy, List.concat_eq_append, List.append_assoc, List.singleton_append] at hword
    exact hp.lengthAt?_other hne (hp.part hspace hword) hrest

variable (line : Line p c)

lemma keyword_canon : line.keyword.map (Text.canon p.caseSensitive) ∈ p.canonOf c := by
  obtain ⟨k, hk, hsame⟩ := line.keyword_mem
  exact Profile.mem_canonOf.mpr ⟨k.toList, List.mem_map_of_mem hk, hsame⟩

/-- The keyword of a line that starts at an offset. -/
def token (offset : Nat) : Token := ⟨offset + Text.width line.indent, Text.width line.keyword, c⟩

lemma exists_not_isSpace (hp : p.Separate) : ∃ b ∈ line.keyword, Text.isSpace b = false := by
  obtain ⟨k, hk, hsame⟩ := Profile.mem_canonOf.mp line.keyword_canon
  have hhead := hp.head k (p.wordsOf_subset c hk)
  have hcanon := Text.same_iff.mp hsame
  rcases k with _ | ⟨a, k⟩
  · contradiction
  rcases hkeyword : line.keyword with _ | ⟨b, word⟩
  · simp [hkeyword] at hcanon
  · obtain ⟨hb, -⟩ := List.cons.inj (hkeyword ▸ hcanon)
    have hspace : Text.isSpace (Text.canon p.caseSensitive b) = false := by
      rw [hb]
      simpa using hhead
    exact ⟨b, by simp, Text.isSpace_eq_false_of_canon hspace⟩

/-- Of a line its keyword is found, for its own category. -/
lemma spansFrom_text (hp : p.Separate) (hs : p.Sealing) (d : Category) (offset : Nat)
    {tail : List Char} (htail : tail.head?.all (· == '\n') = true) :
    spansFrom (ofWords p.caseSensitive (p.wordsOf d)) true 0 offset (line.text ++ tail) =
      (if c = d then [(line.token offset).span] else []) ++
        spansFrom (ofWords p.caseSensitive (p.wordsOf d)) (freshBehind true line.text) 0
          (offset + Text.width line.text) tail := by
  have hseam := seam_trailing line.trailing_blank htail
  have hclosed := closed_fillerText line.filler_words hseam.1
  have hfresh := freshBehind_true (Text.isSpace_of_isBlanks line.indent_blank)
  simp only [text, List.append_assoc, freshBehind_append, Text.width_append, ← Nat.add_assoc]
  rw [spansFrom_space hp (Text.isSpace_of_isBlanks line.indent_blank), hfresh]
  have hbehind (fresh : Bool) (offset : Nat) :
      spansFrom (ofWords p.caseSensitive (p.wordsOf d)) fresh 0 offset
          (fillerText line.filler ++ (line.trailing ++ tail)) = _ :=
    (spansFrom_filler hp hs line.filler_words hseam fresh offset).trans
      (spansFrom_space hp (Text.isSpace_of_isBlanks line.trailing_blank) _ _ _)
  split
  next heq =>
    subst heq
    rw [spansFrom_keyword hp line.keyword_canon hclosed, hbehind]
    rfl
  next hne => rw [spansFrom_other hp hne line.keyword_canon hclosed, hbehind, List.nil_append]

/-- A line opens no region and has no bracket. -/
lemma clear_text (hp : p.Separate) (hs : p.Sealing) {tail : List Char}
    (htail : tail.head?.all (· == '\n') = true) (hclear : p.Clear tail) :
    p.Clear (line.text ++ tail) := by
  have hseam := seam_trailing line.trailing_blank htail
  have htrailing : p.Clear (line.trailing ++ tail) :=
    .space_append hp hs (Text.isSpace_of_isBlanks line.trailing_blank) hclear
  have hfiller : ∀ filler, Fillers p filler →
      p.Clear (fillerText filler ++ (line.trailing ++ tail)) := by
    intro filler hwords
    induction filler with
    | nil => exact htrailing
    | cons f filler ih =>
      rcases f with ⟨gap, word⟩
      obtain ⟨⟨-, hgap, hword⟩, hwords⟩ := List.forall_mem_cons.mp hwords
      rw [fillerText_cons, List.append_assoc, List.append_assoc]
      refine .space_append hp hs (Text.isSpace_of_isBlanks hgap) ?_
      exact hword.clear.append hp (ih hwords) (closed_fillerText hwords hseam.1)
  simp only [text, List.append_assoc]
  refine .space_append hp hs (Text.isSpace_of_isBlanks line.indent_blank) ?_
  exact (hp.clear_keyword hs line.keyword_canon).append hp (hfiller _ line.filler_words)
    (closed_fillerText line.filler_words hseam.1)

end Line
end Document
end BlockHue
