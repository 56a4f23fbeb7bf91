import BlockHue.Proofs.Document.Line

/-! Balanced documents. Nested blocks are printed with one keyword a line: the opening keyword of a
block, its neutral keywords and inner blocks, and its closing keyword. Main statement: in a built-in
language just these keywords are coloured, in their order, and all of one block by the level at
which it is nested. -/
namespace BlockHue

namespace Document

/-- Blocks one after the other; between those inside of a block there may be neutral keywords. -/
inductive Forest (p : Profile) : (inside : Bool) → Type
  | nil {inside : Bool} : Forest p inside
  | neutral (line : Line p .neutral) (rest : Forest p true) : Forest p true
  | block {inside : Bool} (opening : Line p .openBlock) (inner : Forest p true)
      (closing : Line p .closeBlock) (rest : Forest p inside) : Forest p inside

/-- A line and the level of the block that its keyword belongs to. -/
structure Entry (p : Profile) where
  {category : Category}
  line : Line p category
  level : Nat

variable {p : Profile}

/-- The lines of blocks of one level. A neutral keyword between them belongs to the
block around them. -/
def Forest.entries : (level : Nat) → {inside : Bool} → Forest p inside → List (Entry p)
  | _, _, .nil => []
  | level, _, .neutral line rest => ⟨line, level - 1⟩ :: rest.entries level
  | level, _, .block opening inner closing rest =>
    ⟨opening, level⟩ :: (inner.entries (level + 1) ++ ⟨closing, level⟩ :: rest.entries level)

/-- The text of some lines, with or without a line end behind the last one. -/
def print (final : Bool) : List (Entry p) → List Char
  | [] => []
  | e :: es => e.line.text ++ if es.isEmpty && !final then [] else '\n' :: print final es

/-- The keywords of lines that are printed from an offset on, with the levels of their blocks. -/
def layout : (offset : Nat) → List (Entry p) → List (Token × Nat)
  | _, [] => []
  | offset, e :: es =>
    (e.line.token offset, e.level) :: layout (offset + Text.width e.line.text + 1) es

def tokens (offset : Nat) (es : List (Entry p)) : List Token := (layout offset es).map Prod.fst

lemma tokens_cons (offset : Nat) (e : Entry p) (es : List (Entry p)) :
    tokens offset (e :: es) = e.line.token offset ::
      tokens (offset + Text.width e.line.text + 1) es := rfl

/-- The bytes that lines take up with their line ends. -/
def extent (es : List (Entry p)) : Nat := (es.map fun e => Text.width e.line.text + 1).sum

lemma layout_append (offset : Nat) (es fs : List (Entry p)) :
    layout offset (es ++ fs) = layout offset es ++ layout (offset + extent es) fs := by
  induction es generalizing offset with
  | nil => rfl
  | cons e es ih =>
    have hextent : offset + extent (e :: es) = offset + Text.width e.line.text + 1 + extent es := by
      simp only [extent, List.map_cons, List.sum_cons]
      omega
    rw [List.cons_append, layout, ih, hextent, layout, List.cons_append]

lemma tokens_append (offset : Nat) (es fs : List (Entry p)) :
    tokens offset (es ++ fs) = tokens offset es ++ tokens (offset + extent es) fs := by
  rw [tokens, layout_append, List.map_append]
  rfl

section Depth
open Depth

lemma run_cons_of_step {s s' : State} {t : Token} {depth : Nat}
    (h : s.step t.category = (some depth, s')) (ts : List Token) :
    run s (t :: ts) = (t, depth) :: run s' ts := by
  simp only [run, h]

/-- The depth machine gives each keyword the level of its block, and comes back to the level
that it starts at. -/
lemma Forest.run_tokens {inside : Bool} (forest : Forest p inside) (level offset : Nat)
    (h : inside = true → 0 < level) :
    run ⟨.default, level⟩ (tokens offset (forest.entries level)) =
      layout offset (forest.entries level) ∧
      State.feed ⟨.default, level⟩ (tokens offset (forest.entries level)) = ⟨.default, level⟩ := by
  induction forest generalizing level offset with
  | nil => exact ⟨rfl, rfl⟩
  | neutral line rest ih =>
    have hlevel := h rfl
    have hstep : State.step ⟨.default, level⟩ (line.token offset).category =
        (some (level - 1), ⟨.default, level⟩) := by
      have hne : (level == 0) = false := by
        rw [beq_eq_false_iff_ne]
        omega
      simp [State.step, Line.token, hne]
    obtain ⟨hrun, hfeed⟩ := ih level (offset + Text.width line.text + 1) h
    rw [entries, tokens_cons, layout, run_cons_of_step hstep, State.feed_cons, hstep, hrun, hfeed]
    exact ⟨rfl, rfl⟩
  | block opening inner closing rest ihinner ihrest =>
    have hopen : State.step ⟨.default, level⟩ (opening.token offset).category =
        (some level, ⟨.default, level + 1⟩) := rfl
    have hclose (offset : Nat) :
        State.step ⟨.default, level + 1⟩ (closing.token offset).category =
          (some level, ⟨.default, level⟩) := rfl
    obtain ⟨hinner, hfinner⟩ := ihinner (level + 1) (offset + Text.width opening.text + 1) fun _ =>
      level.succ_pos
    have hrest (offset : Nat) := ihrest level offset h
    rw [entries, tokens_cons, tokens_append, tokens_cons, layout, layout_append, layout,
      run_cons_of_step hopen, State.feed_cons, hopen, run_append, State.feed_append, hinner,
      hfinner, run_cons_of_step (hclose _), State.feed_cons, hclose, (hrest _).1, (hrest _).2]
    exact ⟨rfl, rfl⟩

end Depth

/-- The keywords of lines come one behind the other. -/
lemma tokens_ordered (hp : p.Separate) (offset : Nat) (es : List (Entry p)) :
    (∀ t ∈ tokens offset es, offset ≤ t.start ∧ 0 < t.length ∧ t.category.isKeyword = true) ∧
      (tokens offset es).Pairwise fun a b => a.stop ≤ b.start := by
  induction es generalizing offset with
  | nil => simp [tokens, layout]
  | cons e es ih =>
    obtain ⟨hall, hpairs⟩ := ih (offset + Text.width e.line.text + 1)
    have hstop : (e.line.token offset).stop ≤ offset + Text.width e.line.text := by
      simp only [Line.token, Token.stop, Line.text, Text.width_append]
      omega
    rw [tokens_cons]
    refine ⟨List.forall_mem_cons.mpr ⟨⟨?_, ?_, ?_⟩, fun t ht => ?_⟩,
      List.pairwise_cons.mpr ⟨fun t ht => ?_, hpairs⟩⟩
    · exact Nat.le_add_right _ _
    · obtain ⟨b, hb, -⟩ := e.line.exists_not_isSpace hp
      exact Text.width_pos (List.ne_nil_of_mem hb)
    · obtain ⟨k, hk, -⟩ := e.line.keyword_mem
      exact Category.mem_keywords.mp (Profile.mem_keywords_of_mem_wordsOf (List.mem_map_of_mem hk))
    · obtain ⟨hstart, hrest⟩ := hall t ht
      exact ⟨by omega, hrest⟩
    · have hstart := (hall t ht).1
      omega

lemma isSpace_newline : ∀ c ∈ ['\n'], Text.isSpace c = true := by
  intro c hc
  rw [List.mem_singleton.mp hc]
  decide

/-- Of each category the keywords of its lines are found. -/
lemma spansFrom_print (hp : p.Separate) (hs : p.Sealing) (d : Category) (final : Bool)
    (offset : Nat) (es : List (Entry p)) :
    Keyword.spansFrom (Keyword.ofWords p.caseSensitive (p.wordsOf d)) true 0 offset
      (print final es) =
      ((tokens offset es).filter (·.category = d)).map Token.span := by
  induction es generalizing offset with
  | nil => rfl
  | cons e es ih =>
    have hfirst (ts : List Token) :
        ((e.line.token offset :: ts).filter (·.category = d)).map Token.span =
        (if e.category = d then [(e.line.token offset).span] else []) ++
          (ts.filter (·.category = d)).map Token.span := by
      rw [List.filter_cons]
      by_cases h : e.category = d <;> simp [h, Line.token]
    rw [tokens_cons, hfirst, print]
    split
    next hlast =>
      rw [Bool.and_eq_true, List.isEmpty_iff] at hlast
      obtain rfl := hlast.1
      rw [e.line.spansFrom_text hp hs d offset rfl]
      rfl
    next =>
      rw [e.line.spansFrom_text hp hs d offset rfl, ← ih]
      exact congrArg _ (Line.spansFrom_space hp isSpace_newline _ _ (print final es))

lemma clear_print (hp : p.Separate) (hs : p.Sealing) (final : Bool) (es : List (Entry p)) :
    p.Clear (print final es) := by
  induction es with
  | nil => exact Profile.clear_nil hs
  | cons e es ih =>
    rw [print]
    split
    · exact e.line.clear_text hp hs rfl (Profile.clear_nil hs)
    · exact e.line.clear_text hp hs rfl (.space_append hp hs isSpace_newline ih)

lemma tokens_sorted (hp : p.Separate) (offset : Nat) (es : List (Entry p)) :
    (tokens offset es).Pairwise fun a b => a.start < b.start := by
  obtain ⟨hall, hpairs⟩ := tokens_ordered hp offset es
  refine hpairs.imp_of_mem fun {a b} ha _ hab => ?_
  have hlength := (hall a ha).2.1
  have hstop : a.stop = a.start + a.length := rfl
  omega

end Document

namespace Token

/-- Keywords are put together again from those of each category. -/
lemma perm_categories {ts : List Token} (h : ∀ t ∈ ts, t.category.isKeyword = true) :
    (ts.filter (·.category = .openBlock) ++ ts.filter (·.category = .closeBlock) ++
      ts.filter (·.category = .neutral)).Perm ts := by
  induction ts with
  | nil => exact .nil
  | cons t ts ih =>
    obtain ⟨ht, hts⟩ := List.forall_mem_cons.mp h
    have hperm := (ih hts).cons t
    cases hc : t.category
    all_goals simp only [List.filter_cons, hc, reduceCtorEq, decide_true, decide_false,
      if_true, if_false, Bool.false_eq_true]
    case openBlock => exact hperm
    case closeBlock => exact (List.perm_middle.append_right _).trans hperm
    case neutral => exact List.perm_middle.trans hperm
    all_goals simp [hc, Category.isKeyword] at ht

end Token

namespace Language

lemma dropCovered_eq_self {free : Nat} {ts : List Token}
    (hk : ∀ t ∈ ts, t.category.isKeyword = true) (hfree : ∀ t ∈ ts, free ≤ t.start)
    (h : ts.Pairwise fun a b => a.stop ≤ b.start) : dropCovered free ts = ts := by
  induction ts generalizing free with
  | nil => rfl
  | cons t ts ih =>
    obtain ⟨hstop, hpairs⟩ := List.pairwise_cons.mp h
    have hle := hfree t List.mem_cons_self
    rw [dropCovered_free (hk t List.mem_cons_self) (by omega),
      ih (fun u hu => hk u (List.mem_cons_of_mem t hu)) hstop hpairs]

variable {l : Language} {p : Profile} {text : List Char}

/-- In a clear text nothing but keywords is found. -/
lemma Plain.found_of_clear (hl : l.Plain p) (h : p.Clear text) :
    l.found text = l.keywords text := by
  have hregions : l.regions.find text = [] := by
    rw [List.eq_nil_iff_forall_not_mem]
    intro m hm
    rw [hl.regions] at hm
    obtain ⟨front, inside, back, hmarked, hdelimits⟩ := Regions.delimits_of_mem_find hm
    obtain ⟨d, hd, a, rest, hinside, ha⟩ : ∃ d ∈ p.openings, ∃ a rest, inside = a ++ rest ∧
        Text.Same p.caseSensitive a d.text := by
      rcases hdelimits with ⟨d, hd, a, middle, z, rfl, ha, -⟩ | ⟨d, hd, a, rest, rfl, ha, -⟩
      · exact ⟨d.1, List.mem_append_left _ (List.mem_map_of_mem hd), a, middle ++ z,
          List.append_assoc _ _ _, ha⟩
      · exact ⟨d, List.mem_append_right _ hd, a, rest, rfl, ha⟩
    refine h.1 d hd ?_
    rw [← Text.same_iff.mp ha, hmarked.text, hinside]
    exact List.IsInfix.map _ ⟨front, rest ++ back, by simp⟩
  have hbrackets (letters : List Char) (hsub : letters ⊆ p.openBrackets ++ p.closeBrackets) :
      (CharSet.ofLetters p.caseSensitive letters).spansFrom 0 text = [] := by
    rw [List.eq_nil_iff_forall_not_mem]
    intro s hs
    obtain ⟨front, c, back, rfl, hc, -, -⟩ := CharSet.mem_spansFrom hs
    obtain ⟨b, hb, hcb⟩ := CharSet.contains_ofLetters.mp hc
    have hclear := List.all_eq_true.mp h.2 c (by simp)
    rw [decide_eq_true_eq, hcb] at hclear
    exact hclear (List.mem_map_of_mem (hsub hb))
  rw [found, hl.bracket_tokens, hbrackets _ (by simp), hbrackets _ (by simp), Regions.tokens_eq,
    hregions]
  rfl

end Language

namespace Document

variable {l : Language} {p : Profile}

lemma keywordTokens_print (hl : l.Plain p) (hp : p.Separate) (hs : p.Sealing) (d : Category)
    (final : Bool) (es : List (Entry p)) :
    Language.keywordTokens (l.keywordPattern d) d (print final es) =
      (tokens 0 es).filter (·.category = d) := by
  rw [Language.keywordTokens, hl.spells.keywordPattern, Keyword.spans, ← Profile.wordsOf,
    spansFrom_print hp hs, List.map_map]
  refine (List.map_congr_left fun t ht => ?_).trans (List.map_id _)
  have hcategory : t.category = d := by simpa using (List.mem_filter.mp ht).2
  rcases t with ⟨start, length, category⟩
  simp_all [Token.span, Token.stop, Span.length]

/-- The stream of a document is the keywords of its lines. -/
lemma scan_print (hl : l.Plain p) (hp : p.Separate) (hs : p.Sealing) (final : Bool)
    (es : List (Entry p)) :
    l.scan (print final es) = tokens 0 es := by
  rcases es with _ | ⟨e, es⟩
  · rfl
  obtain ⟨hall, hpairs⟩ := tokens_ordered hp 0 (e :: es)
  have hblank : Text.isBlank (print final (e :: es)) = false := by
    obtain ⟨b, hb, hspace⟩ := e.line.exists_not_isSpace hp
    rw [Text.isBlank, List.all_eq_false]
    exact ⟨b, by simp [print, Line.text, hb], by simp [hspace]⟩
  have hfound : (l.found (print final (e :: es))).Perm (tokens 0 (e :: es)) := by
    rw [hl.found_of_clear (clear_print hp hs final (e :: es))]
    have htokens := keywordTokens_print hl hp hs
    refine List.Perm.trans (.of_eq ?_) (Token.perm_categories fun t ht => (hall t ht).2.2)
    rw [← htokens .openBlock final, ← htokens .closeBlock final, ← htokens .neutral final]
    rfl
  have hsort : Token.sort (l.found (print final (e :: es))) = tokens 0 (e :: es) := by
    have hsorted := tokens_sorted hp 0 (e :: es)
    have hnodup : ((tokens 0 (e :: es)).map Token.start).Nodup :=
      List.pairwise_map.mpr (hsorted.imp Nat.ne_of_lt)
    have hperm := (Token.sort_perm _).trans hfound
    refine List.Perm.eq_of_pairwise (fun a b ha hb hab hba => ?_) (Token.sort_pairwise _)
      (hsorted.imp fun h => Token.before_iff.mpr (.inl h)) hperm
    rw [Token.before_iff] at hab hba
    exact List.inj_on_of_nodup_map hnodup (hperm.subset ha) hb (by omega)
  rw [Language.scan_eq hblank, hsort]
  exact Language.dropCovered_eq_self (fun t ht => (hall t ht).2.2) (fun t _ => Nat.zero_le _) hpairs

end Document

namespace BuiltIn
open Document

/-- In a built-in language just the keywords of nested blocks are coloured, in their order, and the
opening, closing and neutral keywords of a block all by the level at which it is nested. -/
theorem assign_forest [Dialect] {id : String} {p : Profile} (hp : (id, p) ∈ profiles)
    (forest : Forest p false) (final : Bool) {slots : Nat} (hslots : 0 < slots) :
    Registry.builtIn.assign (print final (forest.entries 0)) id slots =
      .ok ((layout 0 (forest.entries 0)).map fun (t, level) =>
        ⟨t.start, t.length, level % slots⟩) := by
  obtain ⟨l, hl, hplain⟩ := get_plain hp
  have hscan :=
    scan_print hplain (separate_profiles _ hp) (sealing_profiles _ hp) final (forest.entries 0)
  have hrun : Depth.run {} (tokens 0 (forest.entries 0)) = layout 0 (forest.entries 0) :=
    (forest.run_tokens 0 0 nofun).1
  rw [Registry.assign, hl, Except.bind, hscan, classify_eq hslots, hrun]

open scoped Dialect.Standard

/-- Three levels and two slots, with a keyword of two words and the first of them behind it. -/
theorem assign_nested_struct :
    ("julia", julia) ∈ profiles ∧
      Registry.builtIn.assign
          "mutable struct mutable\n\tif a\n\telseif  b\n\t  for i\n\t  end \n\tend\nend".toList
            "julia" 2 =
        .ok [⟨0, 14, 0⟩, ⟨24, 2, 1⟩, ⟨30, 6, 1⟩, ⟨43, 3, 0⟩, ⟨52, 3, 0⟩, ⟨58, 3, 1⟩,
          ⟨62, 3, 0⟩] := by
  have hp : ("julia", julia) ∈ profiles := by simp [profiles]
  let loop : Forest julia true :=
    .block ⟨"\t  ".toList, "for".toList, [([' '], ['i'])],
      [], by decide, by decide, by decide +kernel, rfl⟩ .nil
      ⟨"\t  ".toList, "end".toList, [], [' '], by decide, by decide, by decide, by decide⟩ .nil
  let branch : Forest julia true :=
    .block ⟨['\t'], "if".toList, [([' '], ['a'])], [], by decide, by decide, by decide +kernel, rfl⟩
      (.neutral ⟨['\t'], "elseif".toList, [("  ".toList, ['b'])],
        [], by decide, by decide, by decide +kernel, rfl⟩ loop)
      ⟨['\t'], "end".toList, [], [], by decide, by decide, by decide, rfl⟩ .nil
  let document : Forest julia false :=
    .block ⟨[], "mutable struct".toList, [([' '], "mutable".toList)], [],
      rfl, by decide, by decide +kernel, rfl⟩ branch
      ⟨[], "end".toList, [], [], rfl, by decide, by decide, rfl⟩ .nil
  exact ⟨hp, assign_forest hp document false (by decide)⟩

end BuiltIn
end BlockHue
