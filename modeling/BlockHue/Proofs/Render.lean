import BlockHue.Render
import BlockHue.Proofs.Place

/-! Pieces of a coloured text. An assignment is passed over if it starts before the end of the last
one that was used, or ends beyond the text. Main statements: a text is cut into pieces just if no
sum ends the program and every assignment that is used starts and stops at a character boundary, in
this order; the pieces make up the text, and each of these assignments colours one. -/
namespace BlockHue
namespace Text

lemma cutAt?_eq_some_iff {n : Nat} {cs a b : List Char} :
    cutAt? n cs = some (a, b) ↔ cs = a ++ b ∧ n = width a := by
  constructor
  · intro h
    fun_induction cutAt? n cs generalizing a b with
    | case1 cs =>
      obtain ⟨rfl, rfl⟩ := Prod.mk.inj (Option.some.inj h)
      exact ⟨rfl, rfl⟩
    | case2 n => contradiction
    | case3 n c cs hle ih =>
      obtain ⟨⟨front, back⟩, hcut, heq⟩ := Option.map_eq_some_iff.mp h
      obtain ⟨rfl, rfl⟩ := Prod.mk.inj heq
      obtain ⟨rfl, hwidth⟩ := ih hcut
      refine ⟨rfl, ?_⟩
      rw [width_cons]
      omega
    | case4 n c cs hle => contradiction
  · rintro ⟨rfl, rfl⟩
    exact cutAt?_width a b

end Text

namespace Assignment

/-- The end of an assignment as a word has it. -/
def wrappedStop (a : Assignment) : Nat :=
  if a.stop < Word.count then a.stop else a.stop - Word.count

lemma wrappedStop_of_lt {a : Assignment} (h : a.stop < Word.count) : a.wrappedStop = a.stop :=
  if_pos h

/-- No sum of assignments ends the program. -/
def Adds (o : Overflow) (as : List Assignment) : Prop := o = .fails → ∀ a ∈ as, a.stop < Word.count

lemma adds_cons {o : Overflow} {a : Assignment} {as : List Assignment} :
    Adds o (a :: as) ↔ Adds o [a] ∧ Adds o as := by
  simp [Adds, imp_and]

lemma add?_bind_eq_some_iff {α : Type} {o : Overflow} {a : Assignment} {next : Nat → Option α}
    {x : α} :
    (o.add? a.start a.length).bind next = some x ↔ Adds o [a] ∧ next a.wrappedStop = some x := by
  by_cases hlt : a.start + a.length < Word.count
  · simp [Overflow.add?, hlt, Adds, wrappedStop, stop]
  · cases o <;> simp [Overflow.add?, hlt, Adds, wrappedStop, stop]

/-- Of assignments in a text of `size` bytes, those that are used where the last one before
them ended at `pos`. -/
def used (size : Nat) : (pos : Nat) → List Assignment → List Assignment
  | _, [] => []
  | pos, a :: as =>
    if a.start < pos ∨ size < a.wrappedStop then used size pos as
    else a :: used size a.wrappedStop as

lemma used_subset (size pos : Nat) (as : List Assignment) : used size pos as ⊆ as := by
  induction as generalizing pos with
  | nil => exact List.nil_subset _
  | cons a as ih =>
    rw [used]
    split
    · exact List.subset_cons_of_subset a (ih pos)
    · exact List.cons_subset_cons a (ih a.wrappedStop)

/-- An assignment that starts and stops at character boundaries of a text. -/
structure Fits (a : Assignment) (text : List Char) : Prop where
  start : Text.Boundary text a.start
  stop : Text.Boundary text a.wrappedStop
  le : a.start ≤ a.wrappedStop

/-- Assignments in order inside a text are all used. -/
lemma used_eq_self {size pos : Nat} {as : List Assignment}
    (hapart : as.Pairwise fun a b => a.stop ≤ b.start) (hstop : ∀ a ∈ as, a.stop ≤ size)
    (hsize : size < Word.count) (hpos : ∀ a ∈ as, pos ≤ a.start) :
    used size pos as = as := by
  induction as generalizing pos with
  | nil => rfl
  | cons a as ih =>
    obtain ⟨hnext, hpairs⟩ := List.pairwise_cons.mp hapart
    have hle := hstop a List.mem_cons_self
    have hstart := hpos a List.mem_cons_self
    have hwrapped := wrappedStop_of_lt (hle.trans_lt hsize)
    have huse : ¬ (a.start < pos ∨ size < a.wrappedStop) := by omega
    rw [used, if_neg huse, hwrapped,
      ih hpairs (fun b hb => hstop b (List.mem_cons_of_mem a hb)) hnext]

lemma adds_of_le {as : List Assignment} {size : Nat} (hstop : ∀ a ∈ as, a.stop ≤ size)
    (hsize : size < Word.count) (o : Overflow) : Adds o as :=
  fun _ a ha => (hstop a ha).trans_lt hsize

end Assignment

namespace Piece

def textOf (pieces : List Piece) : List Char := pieces.flatMap text

@[simp] lemma textOf_nil : textOf [] = [] := rfl
@[simp] lemma textOf_cons (p : Piece) (ps : List Piece) : textOf (p :: ps) = p.text ++ textOf ps :=
  rfl
@[simp] lemma textOf_append (ps qs : List Piece) : textOf (ps ++ qs) = textOf ps ++ textOf qs :=
  List.flatMap_append

/-- The coloured pieces of a row that starts at an offset: their starts, stops and colours. -/
def marks : (offset : Nat) → List Piece → List (Nat × Nat × Color)
  | _, [] => []
  | offset, plain t :: ps => marks (offset + Text.width t) ps
  | offset, colored c t :: ps =>
    (offset, offset + Text.width t, c) :: marks (offset + Text.width t) ps

/-- A coloured piece is marked where the pieces before it end. -/
lemma mem_marks {ps qs : List Piece} {c : Color} {t : List Char} (offset : Nat) :
    (offset + Text.width (textOf ps), offset + Text.width (textOf ps) + Text.width t, c) ∈
      marks offset (ps ++ colored c t :: qs) := by
  induction ps generalizing offset with
  | nil => exact List.mem_cons_self
  | cons p ps ih =>
    cases p with
    | plain s =>
      have hrest := ih (offset + Text.width s)
      rw [Nat.add_assoc offset, ← Text.width_append] at hrest
      exact hrest
    | colored d s =>
      have hrest := ih (offset + Text.width s)
      rw [Nat.add_assoc offset, ← Text.width_append] at hrest
      exact List.mem_cons_of_mem _ hrest

section OfRest

variable {o : Overflow} {palette : Palette} {size pos : Nat} {a : Assignment} {as : List Assignment}
  {front rest : List Char} {pieces : List Piece}

lemma ofRest?_cons_skipped (hskip : a.start < pos ∨ size < a.wrappedStop) :
    ofRest? o palette size pos rest (a :: as) = some pieces ↔
      Assignment.Adds o [a] ∧ ofRest? o palette size pos rest as = some pieces := by
  have hpass : (decide (a.start < pos) || decide (size < a.wrappedStop)) = true := by
    simpa using hskip
  rw [ofRest?, Option.bind_eq_bind, Assignment.add?_bind_eq_some_iff, if_pos hpass]

/-- One assignment that is used cuts off a plain and a coloured piece. -/
lemma ofRest?_cons_used (huse : ¬ (a.start < pos ∨ size < a.wrappedStop)) :
    ofRest? o palette size pos rest (a :: as) = some pieces ↔
      Assignment.Adds o [a] ∧ ∃ before inside back tail, rest = before ++ (inside ++ back) ∧
        a.start = pos + Text.width before ∧ a.wrappedStop = a.start + Text.width inside ∧
        ofRest? o palette size a.wrappedStop back as = some tail ∧
        pieces = plain before :: colored (palette.color a.bucket) inside :: tail := by
  have hpass : ¬ (decide (a.start < pos) || decide (size < a.wrappedStop)) = true := by
    simpa using huse
  rw [ofRest?, Option.bind_eq_bind, Assignment.add?_bind_eq_some_iff, if_neg hpass]
  refine and_congr_right fun _ => ⟨fun h => ?_, ?_⟩
  · simp only [Option.bind_eq_bind, Option.bind_eq_some_iff] at h
    obtain ⟨⟨before, rest'⟩, hbefore, _, hguard, ⟨inside, back⟩, hinside, tail, htail, heq⟩ := h
    have hle : a.start ≤ a.wrappedStop := by simpa [guard] using hguard
    obtain ⟨rfl, hb⟩ := Text.cutAt?_eq_some_iff.mp hbefore
    obtain ⟨rfl, hi⟩ := Text.cutAt?_eq_some_iff.mp hinside
    exact ⟨before, inside, back, tail, rfl, by omega, by omega, htail, (Option.some.inj heq).symm⟩
  · rintro ⟨before, inside, back, tail, rfl, hbefore, hinside, htail, rfl⟩
    have hcut : a.start - pos = Text.width before := by omega
    have hcut' : a.wrappedStop - a.start = Text.width inside := by omega
    have hle : a.start ≤ a.wrappedStop := by omega
    simp [hcut, hcut', hle, htail]

/-- Where the used assignments fit, each cuts off a coloured piece. -/
lemma exists_ofRest? (palette : Palette) (hadds : Assignment.Adds o as)
    (hfits : ∀ a ∈ Assignment.used (Text.width (front ++ rest)) (Text.width front) as,
      a.Fits (front ++ rest)) :
    ∃ pieces, ofRest? o palette (Text.width (front ++ rest)) (Text.width front) rest as =
      some pieces := by
  induction as generalizing front rest with
  | nil => exact ⟨[plain rest], rfl⟩
  | cons a as ih =>
    obtain ⟨hadd, hadds⟩ := Assignment.adds_cons.mp hadds
    rw [Assignment.used] at hfits
    split at hfits
    next hskip =>
      obtain ⟨pieces, hpieces⟩ := ih hadds hfits
      exact ⟨pieces, (ofRest?_cons_skipped hskip).mpr ⟨hadd, hpieces⟩⟩
    next huse =>
      obtain ⟨hstart, hstop, hle⟩ := hfits a List.mem_cons_self
      obtain ⟨before, rest, rfl, hbefore, -⟩ := hstart.cutAt? (by omega)
      rw [← List.append_assoc] at hfits hstop huse ⊢
      obtain ⟨inside, rest, rfl, hinside, -⟩ := hstop.cutAt? (by omega)
      rw [← List.append_assoc] at hfits huse ⊢
      rw [hinside] at hfits
      obtain ⟨pieces, hpieces⟩ := ih hadds fun b hb => hfits b (List.mem_cons_of_mem a hb)
      have hbefore' := hbefore.trans (Text.width_append front before)
      have hinside' := hinside.trans (Text.width_append (front ++ before) inside)
      rw [← hbefore] at hinside'
      rw [← hinside] at hpieces
      exact ⟨_, (ofRest?_cons_used huse).mpr
        ⟨hadd, before, inside, rest, pieces, rfl, hbefore', hinside', hpieces, rfl⟩⟩

/-- What is known where a text has been cut into pieces. -/
lemma ofRest?_eq_some
    (h : ofRest? o palette (Text.width (front ++ rest)) (Text.width front) rest as = some pieces) :
    Assignment.Adds o as ∧
      (∀ a ∈ Assignment.used (Text.width (front ++ rest)) (Text.width front) as,
        a.Fits (front ++ rest)) ∧
      textOf pieces = rest ∧ marks (Text.width front) pieces =
        (Assignment.used (Text.width (front ++ rest)) (Text.width front) as).map
          fun a => (a.start, a.wrappedStop, palette.color a.bucket) := by
  induction as generalizing front rest pieces with
  | nil =>
    obtain rfl := Option.some.inj h
    simp [Assignment.Adds, Assignment.used, marks, text]
  | cons a as ih =>
    rw [Assignment.used, Assignment.adds_cons]
    split
    next hskip =>
      obtain ⟨hadd, h⟩ := (ofRest?_cons_skipped hskip).mp h
      obtain ⟨hadds, hrest⟩ := ih h
      exact ⟨⟨hadd, hadds⟩, hrest⟩
    next huse =>
      obtain ⟨hadd, before, inside, back, tail, rfl, hbefore, hinside, htail, rfl⟩ :=
        (ofRest?_cons_used huse).mp h
      have hstart : a.start = Text.width (front ++ before) := by rw [hbefore, Text.width_append]
      have hstop : a.wrappedStop = Text.width (front ++ before ++ inside) := by
        rw [hinside, hstart, ← Text.width_append]
      have htext : front ++ (before ++ (inside ++ back)) = front ++ before ++ inside ++ back := by
        simp
      rw [htext, hstop] at htail
      obtain ⟨hadds, hfits, htextOf, hmarks⟩ := ih htail
      rw [htext, hstop, List.forall_mem_cons]
      refine ⟨⟨hadd, hadds⟩, ⟨⟨?_, ?_, by omega⟩, hfits⟩, ?_, ?_⟩
      · exact ⟨front ++ before, inside ++ back, by simp, hstart⟩
      · exact ⟨front ++ before ++ inside, back, rfl, hstop⟩
      · simp [text, htextOf]
      · rw [marks, marks, ← hbefore, ← hinside, hstop, hmarks, List.map_cons, hstop]

end OfRest

section OfText

variable {o : Overflow} {palette : Palette} {text : List Char} {as : List Assignment}
  {pieces : List Piece}

lemma ofText?_eq_some (h : ofText? o palette text as = some pieces) :
    Assignment.Adds o as ∧ (∀ a ∈ Assignment.used (Text.width text) 0 as, a.Fits text) ∧
      textOf pieces = text ∧
      marks 0 pieces = (Assignment.used (Text.width text) 0 as).map
        fun a => (a.start, a.wrappedStop, palette.color a.bucket) := by
  have hrest :
      ofRest? o palette (Text.width ([] ++ text)) (Text.width []) text as = some pieces := h
  exact ofRest?_eq_some hrest

lemma exists_ofText? (palette : Palette) (hadds : Assignment.Adds o as)
    (hfits : ∀ a ∈ Assignment.used (Text.width text) 0 as, a.Fits text) :
    ∃ pieces, ofText? o palette text as = some pieces := by
  have hnil : ∀ a ∈ Assignment.used (Text.width ([] ++ text)) (Text.width []) as,
      a.Fits ([] ++ text) := hfits
  exact exists_ofRest? palette hadds hnil

/-- A coloured piece of a text stands where its assignment says, between the pieces
before and behind it. -/
lemma exists_assignment {before after : List Piece} {c : Color} {w : List Char}
    (htext : textOf pieces = text)
    (hmarks : marks 0 pieces = as.map fun a => (a.start, a.stop, palette.color a.bucket))
    (h : pieces = before ++ colored c w :: after) :
    ∃ a ∈ as, text = textOf before ++ w ++ textOf after ∧ a.start = Text.width (textOf before) ∧
      a.length = Text.width w := by
  have hmem : (0 + Text.width (textOf before), 0 + Text.width (textOf before) + Text.width w, c) ∈
      marks 0 pieces :=
    h ▸ mem_marks 0
  rw [hmarks] at hmem
  obtain ⟨a, ha, heq⟩ := List.mem_map.mp hmem
  obtain ⟨hstart, heq⟩ := Prod.mk.inj heq
  obtain ⟨hstop, -⟩ := Prod.mk.inj heq
  rw [Assignment.stop] at hstop
  refine ⟨a, ha, ?_, by omega, by omega⟩
  rw [← htext, h]
  simp [Piece.text]

end OfText

end Piece
end BlockHue
