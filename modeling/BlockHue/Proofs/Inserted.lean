import BlockHue.Proofs.Render

/-! Colouring as insertion. Main statement: the coloured text is the text with a sequence put in at
the start and at the end of each assignment that is used, and there is none just if a used
assignment cuts a character or a sum is too large. -/
namespace BlockHue

namespace Text

/-- `out` is the text, which starts at an offset, with sequences put in at their offsets
one after the other. -/
inductive Inserted : (offset : Nat) → List (Nat × List Char) → (text out : List Char) → Prop
  | rest (offset : Nat) (text : List Char) : Inserted offset [] text text
  | char {offset : Nat} {insertions : List (Nat × List Char)} {text out : List Char} (c : Char)
      (h : Inserted (offset + c.utf8Size) insertions text out) :
      Inserted offset insertions (c :: text) (c :: out)
  | sequence {offset : Nat} {insertions : List (Nat × List Char)} {text out : List Char}
      (s : List Char) (h : Inserted offset insertions text out) :
      Inserted offset ((offset, s) :: insertions) text (s ++ out)

namespace Inserted

variable {offset : Nat} {insertions : List (Nat × List Char)} {text out : List Char}

lemma append (w : List Char) (h : Inserted (offset + width w) insertions text out) :
    Inserted offset insertions (w ++ text) (w ++ out) := by
  induction w generalizing offset with
  | nil => exact h
  | cons c w ih =>
    rw [width_cons, ← Nat.add_assoc] at h
    exact .char c (ih h)

lemma boundary (h : Inserted offset insertions text out) {i : Nat × List Char}
    (hi : i ∈ insertions) :
    ∃ n, Boundary text n ∧ i.1 = offset + n := by
  induction h with
  | rest => contradiction
  | char c _ ih =>
    obtain ⟨n, ⟨front, back, htext, hn⟩, heq⟩ := ih hi
    refine ⟨c.utf8Size + n,
      ⟨c :: front, back, by rw [htext, List.cons_append], by rw [hn, width_cons]⟩, ?_⟩
    rw [heq, Nat.add_assoc]
  | sequence s _ ih =>
    rcases List.mem_cons.mp hi with rfl | hi
    · exact ⟨0, ⟨[], _, rfl, rfl⟩, rfl⟩
    · exact ih hi

lemma eq_of_nil (h : Inserted offset [] text out) : out = text := by
  generalize hnil : ([] : List (Nat × List Char)) = insertions at h
  induction h with
  | rest => rfl
  | char c _ ih => rw [ih hnil]
  | sequence => contradiction

/-- There is one way to put the sequences in, since a sequence can not wait until its
offset is passed. -/
lemma unique {out' : List Char} (h : Inserted offset insertions text out)
    (h' : Inserted offset insertions text out') :
    out = out' := by
  have hpassed {offset : Nat} {c : Char} {s : List Char} {insertions : List (Nat × List Char)}
      {text out : List Char}
      (h : Inserted (offset + c.utf8Size) ((offset, s) :: insertions) text out) : False := by
    obtain ⟨n, -, heq⟩ := h.boundary List.mem_cons_self
    have hc := c.utf8Size_pos
    simp only at heq
    omega
  induction h generalizing out' with
  | rest => exact h'.eq_of_nil.symm
  | char c h ih =>
    cases h' with
    | rest => rw [h.eq_of_nil]
    | char _ h' => rw [ih h']
    | sequence => exact (hpassed h).elim
  | sequence s h ih =>
    cases h' with
    | char c h' => exact (hpassed h').elim
    | sequence _ h' => rw [ih h']

lemma ordered (h : Inserted offset insertions text out) :
    insertions.Pairwise fun i j => i.1 ≤ j.1 := by
  induction h with
  | rest => exact .nil
  | char c _ ih => exact ih
  | sequence s h ih =>
    refine .cons (fun i hi => ?_) ih
    obtain ⟨n, -, heq⟩ := h.boundary hi
    omega

end Inserted
end Text

namespace Ink

/-- The sequence that sets a colour: one of sixteen by its number, or the terminal's own; without
colours it sets nothing. -/
def sequence : Ink → Color → String
  | .none, _ => "\x1b[m"
  | .color, .default => "\x1b[39m"
  | .color, .black => "\x1b[38;5;0m"
  | .color, .red => "\x1b[38;5;1m"
  | .color, .green => "\x1b[38;5;2m"
  | .color, .yellow => "\x1b[38;5;3m"
  | .color, .blue => "\x1b[38;5;4m"
  | .color, .magenta => "\x1b[38;5;5m"
  | .color, .cyan => "\x1b[38;5;6m"
  | .color, .white => "\x1b[38;5;7m"
  | .color, .brightBlack => "\x1b[38;5;8m"
  | .color, .brightRed => "\x1b[38;5;9m"
  | .color, .brightGreen => "\x1b[38;5;10m"
  | .color, .brightYellow => "\x1b[38;5;11m"
  | .color, .brightBlue => "\x1b[38;5;12m"
  | .color, .brightMagenta => "\x1b[38;5;13m"
  | .color, .brightCyan => "\x1b[38;5;14m"
  | .color, .brightWhite => "\x1b[38;5;15m"

lemma set_eq (ink : Ink) (c : Color) : ink.set c = (ink.sequence c).toList := by
  cases ink <;> cases c <;> rfl

/-- What is put in to colour the stretch between two offsets: the colour in front of it, and
a reset behind it. -/
def coloring (ink : Ink) (c : Color) (start stop : Nat) : List (Nat × List Char) :=
  [(start, (ink.sequence c).toList), (stop, "\x1b[0m".toList)]

end Ink

namespace Piece

/-- A row of pieces is written as its text with sequences around the coloured pieces. -/
lemma inserted_render (ink : Ink) (offset : Nat) (pieces : List Piece) :
    Text.Inserted offset ((marks offset pieces).flatMap fun m => ink.coloring m.2.2 m.1 m.2.1)
      (textOf pieces)
      (pieces.flatMap (render ink)) := by
  induction pieces generalizing offset with
  | nil => exact .rest offset []
  | cons p pieces ih =>
    cases p with
    | plain t => exact (ih (offset + Text.width t)).append t
    | colored c t =>
      have hreset := (ih (offset + Text.width t)).sequence Ink.reset
      have hset := (hreset.append t).sequence (ink.set c)
      rw [Ink.set_eq] at hset
      simpa [marks, textOf, text, render, Ink.set_eq, Ink.reset, Ink.coloring] using hset

variable {o : Overflow} {palette : Palette} {text : List Char} {as : List Assignment}

lemma ofText?_eq_none_iff :
    ofText? o palette text as = none ↔ (o = .fails ∧ ∃ a ∈ as, Word.count ≤ a.stop) ∨
    ∃ a ∈ Assignment.used (Text.width text) 0 as,
      ¬ Text.Boundary text a.start ∨ ¬ Text.Boundary text a.wrappedStop ∨
        a.wrappedStop < a.start := by
  constructor
  · intro h
    by_contra hall
    push Not at hall
    obtain ⟨hadds, hfits⟩ := hall
    obtain ⟨pieces, hpieces⟩ := exists_ofText? palette hadds fun a ha =>
      ⟨(hfits a ha).1, (hfits a ha).2.1, (hfits a ha).2.2⟩
    rw [h] at hpieces
    contradiction
  · intro h
    rw [Option.eq_none_iff_forall_ne_some]
    intro pieces hpieces
    obtain ⟨hadds, hfits, -⟩ := ofText?_eq_some hpieces
    rcases h with ⟨hfails, a, ha, hlarge⟩ | ⟨a, ha, hcut⟩
    · exact (hadds hfails a ha).not_ge hlarge
    · obtain ⟨hstart, hstop, hle⟩ := hfits a ha
      rcases hcut with hcut | hcut | hcut
      · exact hcut hstart
      · exact hcut hstop
      · exact hcut.not_ge hle

lemma inserted_of_ofText? (ink : Ink) {pieces : List Piece}
    (h : ofText? o palette text as = some pieces) :
    Text.Inserted 0 ((Assignment.used (Text.width text) 0 as).flatMap fun a =>
      ink.coloring (palette.color a.bucket) a.start a.wrappedStop) text
        (pieces.flatMap (render ink)) := by
  obtain ⟨-, -, htext, hmarks⟩ := ofText?_eq_some h
  have hinserted := inserted_render ink 0 pieces
  rw [htext, hmarks, List.flatMap_map] at hinserted
  exact hinserted

/-- Assignments in order inside a text colour one piece each. -/
lemma ofText?_ordered (hapart : as.Pairwise fun a b => a.stop ≤ b.start)
    (hstop : ∀ a ∈ as, a.stop ≤ Text.width text) (hsize : Text.width text < Word.count)
    {pieces : List Piece} (h : ofText? o palette text as = some pieces) :
    textOf pieces = text ∧
      marks 0 pieces = as.map (fun a => (a.start, a.stop, palette.color a.bucket)) ∧
      ∀ ink : Ink,
        Text.Inserted 0 (as.flatMap fun a => ink.coloring (palette.color a.bucket) a.start a.stop)
          text (pieces.flatMap (render ink)) := by
  obtain ⟨-, -, htext, hmarks⟩ := ofText?_eq_some h
  rw [Assignment.used_eq_self hapart hstop hsize fun _ _ => Nat.zero_le _] at hmarks
  have hordered : marks 0 pieces = as.map fun a => (a.start, a.stop, palette.color a.bucket) := by
    rw [hmarks]
    apply List.map_congr_left
    intro a ha
    rw [Assignment.wrappedStop_of_lt ((hstop a ha).trans_lt hsize)]
  refine ⟨htext, hordered, fun ink => ?_⟩
  have hinserted := inserted_render ink 0 pieces
  rwa [htext, hordered, List.flatMap_map] at hinserted

lemma exists_ofText?_of_boundary (o : Overflow) (palette : Palette)
    (hsize : Text.width text < Word.count)
    (hcuts : ∀ a ∈ as, Text.Boundary text a.start ∧ Text.Boundary text a.stop) :
    ∃ pieces, ofText? o palette text as = some pieces := by
  have hstop : ∀ a ∈ as, a.stop ≤ Text.width text := fun a ha => (hcuts a ha).2.le_width
  apply exists_ofText? palette (Assignment.adds_of_le hstop hsize o)
  intro a ha
  have ha := Assignment.used_subset _ _ _ ha
  have hwrapped := Assignment.wrappedStop_of_lt ((hstop a ha).trans_lt hsize)
  exact ⟨(hcuts a ha).1, hwrapped ▸ (hcuts a ha).2, hwrapped ▸ Nat.le_add_right _ _⟩

/-- Assignments in order inside a text can be coloured just if none of them cuts a character. -/
lemma exists_ofText?_iff (o : Overflow) (palette : Palette)
    (hapart : as.Pairwise fun a b => a.stop ≤ b.start)
    (hstop : ∀ a ∈ as, a.stop ≤ Text.width text) (hsize : Text.width text < Word.count) :
    (∃ pieces, ofText? o palette text as = some pieces) ↔
      ∀ a ∈ as, Text.Boundary text a.start ∧ Text.Boundary text a.stop := by
  constructor
  · rintro ⟨pieces, hpieces⟩ a ha
    obtain ⟨-, hfits, -⟩ := ofText?_eq_some hpieces
    rw [Assignment.used_eq_self hapart hstop hsize fun _ _ => Nat.zero_le _] at hfits
    have hwrapped := Assignment.wrappedStop_of_lt ((hstop a ha).trans_lt hsize)
    exact ⟨(hfits a ha).start, hwrapped ▸ (hfits a ha).stop⟩
  · exact exists_ofText?_of_boundary o palette hsize

/-- Sequences can be put in at the used assignments only if these cut no character. -/
lemma fits_of_inserted {ink : Ink} {out : List Char}
    (h : Text.Inserted 0 ((Assignment.used (Text.width text) 0 as).flatMap fun a =>
      ink.coloring (palette.color a.bucket) a.start a.wrappedStop) text out) :
    ∀ a ∈ Assignment.used (Text.width text) 0 as, a.Fits text := by
  intro a ha
  have hboundary (i : Nat × List Char)
      (hi : i ∈ ink.coloring (palette.color a.bucket) a.start a.wrappedStop) :
      Text.Boundary text i.1 := by
    obtain ⟨n, hn, heq⟩ := h.boundary (List.mem_flatMap.mpr ⟨a, ha, hi⟩)
    rwa [heq, Nat.zero_add]
  obtain ⟨hordered, -⟩ := List.pairwise_flatMap.mp h.ordered
  have hle := List.pairwise_pair.mp (hordered a ha)
  exact ⟨hboundary _ List.mem_cons_self, hboundary _ (List.mem_cons_of_mem _ List.mem_cons_self),
    hle⟩

end Piece

/-- Colouring fails just if a sum is too large where sums are checked, or an assignment that is used
cuts a character or stops before it starts. Otherwise the coloured text is the text with a colour
put in at the start and a reset at the stop of each used assignment, in order; it is written piece
by piece, the pieces make up the text, and the coloured ones are the stretches of the used
assignments. Where no sum is too large, an assignment stops behind as many bytes as it is long. -/
theorem coloring_inserts (o : Overflow) (ink : Ink) (palette : Palette) (text : List Char)
    (as : List Assignment) :
    (renderColored? o ink palette text as = none ↔ (o = .fails ∧ ∃ a ∈ as, Word.count ≤ a.stop) ∨
      ∃ a ∈ Assignment.used (Text.width text) 0 as,
        ¬ Text.Boundary text a.start ∨ ¬ Text.Boundary text a.wrappedStop ∨
          a.wrappedStop < a.start) ∧
    (∀ out, renderColored? o ink palette text as = some out ↔ Assignment.Adds o as ∧
      Text.Inserted 0 ((Assignment.used (Text.width text) 0 as).flatMap fun a =>
        ink.coloring (palette.color a.bucket) a.start a.wrappedStop) text out) ∧
    (∀ out, renderColored? o ink palette text as = some out ↔
      ∃ pieces, Piece.ofText? o palette text as = some pieces ∧ Piece.textOf pieces = text ∧
        Piece.marks 0 pieces = (Assignment.used (Text.width text) 0 as).map
          (fun a => (a.start, a.wrappedStop, palette.color a.bucket)) ∧
        out = pieces.flatMap (Piece.render ink)) ∧
    ((∀ a ∈ as, a.stop < Word.count) → (∀ a ∈ as, a.wrappedStop = a.start + a.length) ∧
      (renderColored? o ink palette text as = none ↔ ∃ a ∈ Assignment.used (Text.width text) 0 as,
        ¬ Text.Boundary text a.start ∨ ¬ Text.Boundary text a.wrappedStop)) := by
  have hnone : renderColored? o ink palette text as = none ↔
      Piece.ofText? o palette text as = none := by
    rw [renderColored?, Option.map_eq_none_iff]
  rw [hnone, Piece.ofText?_eq_none_iff]
  refine ⟨Iff.rfl,
    fun out => ⟨fun h => ?_, ?_⟩, fun out => ⟨fun h => ?_, ?_⟩, fun hsmall => ⟨?_, ?_⟩⟩
  · obtain ⟨pieces, hpieces, rfl⟩ := Option.map_eq_some_iff.mp h
    exact ⟨(Piece.ofText?_eq_some hpieces).1, Piece.inserted_of_ofText? ink hpieces⟩
  · rintro ⟨hadds, h⟩
    obtain ⟨pieces, hpieces⟩ := Piece.exists_ofText? palette hadds (Piece.fits_of_inserted h)
    rw [renderColored?, hpieces, Option.map_some, (Piece.inserted_of_ofText? ink hpieces).unique h]
  · obtain ⟨pieces, hpieces, rfl⟩ := Option.map_eq_some_iff.mp h
    obtain ⟨-, -, htext, hmarks⟩ := Piece.ofText?_eq_some hpieces
    exact ⟨pieces, hpieces, htext, hmarks, rfl⟩
  · rintro ⟨pieces, hpieces, -, -, rfl⟩
    rw [renderColored?, hpieces, Option.map_some]
  · exact fun a ha => Assignment.wrappedStop_of_lt (hsmall a ha)
  · constructor
    · rintro (⟨-, a, ha, hlarge⟩ | ⟨a, ha, hcut⟩)
      · exact absurd hlarge (hsmall a ha).not_ge
      · have hstop := Assignment.wrappedStop_of_lt (hsmall a (Assignment.used_subset _ _ _ ha))
        have hle : ¬ a.wrappedStop < a.start := by
          rw [hstop, Assignment.stop]
          omega
        exact ⟨a, ha, hcut.imp_right fun h => h.resolve_right hle⟩
    · rintro ⟨a, ha, hcut⟩
      exact .inr ⟨a, ha, hcut.imp_right .inl⟩

/-- Of four assignments to a text with a character of two bytes, one overlaps another and one
ends beyond the text. -/
theorem coloring_inserts_overlapping :
    let as : List Assignment := [⟨0, 1, 0⟩, ⟨0, 3, 2⟩, ⟨1, 2, 1⟩, ⟨3, 2, 0⟩]
    let out := "\x1b[38;5;3ma\x1b[0m\x1b[38;5;5m\u00e9\x1b[0mb".toList
    (∀ a ∈ as, a.stop < Word.count) ∧ renderColored? .fails .color .standard "a\u00e9b".toList as =
      some out ∧
      Text.Inserted 0 (Ink.color.coloring .yellow 0 1 ++ Ink.color.coloring .magenta 1 3)
        "a\u00e9b".toList out := by
  intro as out
  have hsmall : ∀ a ∈ as, a.stop < Word.count := by decide
  have hout : renderColored? .fails .color .standard "a\u00e9b".toList as = some out := by
    decide +kernel
  obtain ⟨-, hinserted, -⟩ := coloring_inserts .fails .color .standard "a\u00e9b".toList as
  exact ⟨hsmall, hout, ((hinserted out).mp hout).2⟩

/-- An assignment that ends far beyond the text is not passed over if its end is too
large for a word. -/
theorem huge_assignment_fails :
    let a : Assignment := ⟨1, 18446744073709551615, 0⟩
    Text.width "ab".toList < a.start + a.length ∧
      ∀ o, renderColored? o .color { colors := [.red] } "ab".toList [a] = none := by
  refine ⟨by decide, fun o => ?_⟩
  cases o <;> decide +kernel

end BlockHue
