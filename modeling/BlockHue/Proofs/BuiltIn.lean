import BlockHue.Pattern.Standard
import BlockHue.Proofs.Inserted
import BlockHue.Proofs.Kept
import BlockHue.Proofs.Pattern.Read.Dialect
import BlockHue.Proofs.Registry

/-! Colouring a text in a built-in language. Main statement: for every text and palette there are
assignments, all of them are used, the pieces make up the text, and each coloured piece is a keyword
of the language that stands by itself. -/
namespace BlockHue

def Profile.words (p : Profile) : List (List Char) :=
  (p.openKeywords ++ p.closeKeywords ++ p.neutralKeywords).map String.toList

lemma Profile.keywordsOf_subset (p : Profile) (c : Category) :
    (p.keywordsOf c).map String.toList ⊆ p.words := by
  apply List.map_subset
  cases c <;> simp [Profile.keywordsOf]

namespace Language

/-- The keyword patterns of a language are those of the words of a profile. -/
def Spells (l : Language) (p : Profile) : Prop :=
  l.openKeywords = Keyword.ofWords p.caseSensitive (p.openKeywords.map String.toList) ∧
    l.closeKeywords = Keyword.ofWords p.caseSensitive (p.closeKeywords.map String.toList) ∧
    l.neutralKeywords = Keyword.ofWords p.caseSensitive (p.neutralKeywords.map String.toList)

instance (l : Language) (p : Profile) : Decidable (l.Spells p) :=
  inferInstanceAs (Decidable (_ ∧ _ ∧ _))

variable {l : Language} {p : Profile} {text : List Char}

lemma Spells.keywordPattern (h : l.Spells p) (c : Category) :
    l.keywordPattern c = Keyword.ofWords p.caseSensitive ((p.keywordsOf c).map String.toList) := by
  obtain ⟨hopen, hclose, hneutral⟩ := h
  cases c
  case openBlock => exact hopen
  case closeBlock => exact hclose
  case neutral => exact hneutral
  all_goals rfl

/-- A keyword of the stream is a word of the profile that stands by itself. -/
lemma Spells.stands (h : l.Spells p) {t : Token} (ht : t ∈ l.scan text)
    (hk : t.category.isKeyword = true) :
    ∃ front w back, text = front ++ w ++ back ∧ t.start = Text.width front ∧
      t.stop = Text.width (front ++ w) ∧
      Keyword.Stands p.caseSensitive p.words front w back := by
  have hmem := mem_keywords_of_mem_scan ht hk
  obtain ⟨front, rest, hfound⟩ :=
    found_of_mem_keywordTokens (mem_keywordTokens_of_mem_keywords hmem)
  rw [h.keywordPattern] at hfound
  obtain ⟨w, back, htext, hstop, hstands⟩ := hfound.stands
  exact ⟨front, w, back, htext, hfound.start, hstop, hstands.mono (p.keywordsOf_subset _)⟩

/-- The assignments of a text come in order, and each names a word of the profile that
stands by itself. -/
lemma Spells.classify_words (h : l.Spells p) (text : List Char) {slots : Nat} (hslots : 0 < slots) :
    ∃ as, classify (l.scan text) slots = .ok as ∧ as.Pairwise (fun a b => a.stop ≤ b.start) ∧
      ∀ a ∈ as, ∃ front w back, text = front ++ w ++ back ∧ a.start = Text.width front ∧
        a.length = Text.width w ∧
        Keyword.Stands p.caseSensitive p.words front w back := by
  obtain ⟨as, has, hkeyword, hapart⟩ := classify_scan l text hslots
  refine ⟨as, has, hapart, fun a ha => ?_⟩
  obtain ⟨t, ht, hk, hstart, hlength⟩ := hkeyword a ha
  obtain ⟨front, w, back, htext, hfront, hstop, hstands⟩ := h.stands ht hk
  refine ⟨front, w, back, htext, hstart ▸ hfront, ?_, hstands⟩
  rw [Token.stop, hfront, Text.width_append] at hstop
  omega

end Language

namespace BuiltIn

/-- All built-in profiles compile in the least dialect, to the patterns of their words. -/
lemma compile_least : ∀ e ∈ profiles, ∃ l ∈ @Language.compile? .least e.1 e.2, l.Spells e.2 := by
  decide +kernel

/-- A built-in language is found under its name. -/
lemma get_eq_compile [Dialect] {id : String} {p : Profile} (hp : (id, p) ∈ profiles) {l : Language}
    (hl : Language.compile? id p = some l) : Registry.builtIn.get id = .ok l := by
  have hnodup : (profiles.map Prod.fst).Nodup := by simp [profiles]
  apply Registry.get_eq_ok
  rw [Registry.builtIn, Registry.lookup_registerAll _ hnodup hp]
  exact hl

lemma get_profile [Dialect] {id : String} {p : Profile} (hp : (id, p) ∈ profiles) :
    ∃ l, Registry.builtIn.get id = .ok l ∧ l.Spells p := by
  obtain ⟨l, hl, hspells⟩ := compile_least (id, p) hp
  exact ⟨l, get_eq_compile hp (Language.compile?_of_least hl), hspells⟩

/-- In every built-in language each text is coloured: no cut falls inside a character, the pieces
make up the text, every assignment colours one piece, and a coloured piece is a keyword of the
language that stands by itself. What is written is the text with a colour put in at the start and a
reset at the end of each assignment. -/
theorem colored_text [Dialect] {id : String} {p : Profile} (hp : (id, p) ∈ profiles)
    (palette : Palette) (text : List Char) (hsize : Text.width text < Word.count) (o : Overflow) :
    ∃ as pieces, Registry.builtIn.assign text id palette.size = .ok as ∧
      Piece.ofText? o palette text as = some pieces ∧
      (∀ ink, ∃ out, renderColored? o ink palette text as = some out ∧
        out = pieces.flatMap (Piece.render ink) ∧
        Text.Inserted 0 (as.flatMap fun a => ink.coloring (palette.color a.bucket) a.start a.stop)
          text out) ∧
      Piece.textOf pieces = text ∧
      Piece.marks 0 pieces = as.map (fun a => (a.start, a.stop, palette.color a.bucket)) ∧
      ∀ before c w after, pieces = before ++ .colored c w :: after →
        Keyword.Stands p.caseSensitive p.words (Piece.textOf before) w (Piece.textOf after) := by
  obtain ⟨l, hget, hspells⟩ := get_profile hp
  obtain ⟨as, has, hapart, hword⟩ := hspells.classify_words text palette.size_pos
  have hassign : Registry.builtIn.assign text id palette.size = .ok as := by
    rw [Registry.assign, hget]
    exact has
  have hcuts (a : Assignment) (ha : a ∈ as) : Text.Boundary text a.start ∧
      Text.Boundary text a.stop := by
    obtain ⟨front, w, back, htext, hstart, hlength, -⟩ := hword a ha
    constructor
    · exact ⟨front, w ++ back, by rw [htext, List.append_assoc], hstart⟩
    · exact ⟨front ++ w, back, htext, by rw [Assignment.stop, hstart, hlength, Text.width_append]⟩
  have hstop : ∀ a ∈ as, a.stop ≤ Text.width text := fun a ha => (hcuts a ha).2.le_width
  obtain ⟨pieces, hpieces⟩ := Piece.exists_ofText?_of_boundary o palette hsize hcuts
  obtain ⟨htext, hmarks, hinserted⟩ := Piece.ofText?_ordered hapart hstop hsize hpieces
  refine ⟨as, pieces, hassign, hpieces, fun ink => ⟨_, ?_, rfl, hinserted ink⟩, htext, hmarks, ?_⟩
  · rw [renderColored?, hpieces, Option.map_some]
  · intro before c w after hsplit
    obtain ⟨a, ha, hwhole, hstart, hlength⟩ := Piece.exists_assignment htext hmarks hsplit
    obtain ⟨front, v, back, hcut, hfront, hv, hstands⟩ := hword a ha
    rw [hwhole, List.append_assoc, List.append_assoc] at hcut
    obtain ⟨rfl, hrest⟩ := Text.eq_of_width_eq hcut (hstart.symm.trans hfront)
    obtain ⟨rfl, rfl⟩ := Text.eq_of_width_eq hrest (hlength.symm.trans hv)
    exact hstands

open scoped Dialect.Standard

/-- A text with the long s, which takes two bytes and is an s up to case. -/
theorem colored_text_long_s :
    ("ruby", ruby) ∈ profiles ∧ Text.width "cla\u017fs\nEnd".toList < Word.count ∧ ∃ as pieces out,
      Registry.builtIn.assign "cla\u017fs\nEnd".toList "ruby" 3 = .ok as ∧
        Piece.ofText? .fails .standard "cla\u017fs\nEnd".toList as = some pieces ∧
        Piece.textOf pieces = "cla\u017fs\nEnd".toList ∧
        renderColored? .fails .color .standard "cla\u017fs\nEnd".toList as = some out ∧
        Text.Inserted 0 (as.flatMap fun a =>
          Ink.color.coloring (Palette.standard.color a.bucket) a.start a.stop)
          "cla\u017fs\nEnd".toList out := by
  have hp : ("ruby", ruby) ∈ profiles := by simp [profiles]
  have hsize : Text.width "cla\u017fs\nEnd".toList < Word.count := by decide
  obtain ⟨as, pieces, hassign, hpieces, hrender, htext, -⟩ :=
    colored_text hp .standard _ hsize .fails
  obtain ⟨out, hout, -, hinserted⟩ := hrender .color
  exact ⟨hp, hsize, as, pieces, out, hassign, hpieces, htext, hout, hinserted⟩

end BuiltIn
end BlockHue
