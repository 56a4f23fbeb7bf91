import BlockHue.Highlighter
import BlockHue.Proofs.Inserted
import BlockHue.Proofs.Kept
import BlockHue.Proofs.Log
import BlockHue.Proofs.Position

/-! The two ways to show a text: in colour, or as ranges by bucket. The assignments of a text come
in order, do not overlap and name slots of the palette, so neither way passes one over. Main
statement: the coloured pieces are the stretches of the assignments one by one, and the lists of
ranges hold each assignment once, in the list of its bucket. -/
namespace BlockHue
namespace Text

/-- A stretch of a text: `w` stands behind `start` bytes. -/
def Slice (text : List Char) (start : Nat) (w : List Char) : Prop :=
  ∃ front back, text = front ++ w ++ back ∧ start = width front

end Text

namespace Piece

def colorings (pieces : List Piece) : List (Color × List Char) :=
  pieces.filterMap fun
    | plain _ => none
    | colored c w => some (c, w)

/-- Each mark names the colour and the stretch of a coloured piece. -/
lemma colorings_marks (front : List Char) (pieces : List Piece) :
    List.Forall₂ (fun cw mark => mark.2 = (mark.1 + Text.width cw.2, cw.1) ∧
        Text.Slice (front ++ textOf pieces) mark.1 cw.2)
      (colorings pieces) (marks (Text.width front) pieces) := by
  induction pieces generalizing front with
  | nil => exact .nil
  | cons p pieces ih =>
    cases p with
    | plain t =>
      have hrest := ih (front ++ t)
      rw [Text.width_append, List.append_assoc] at hrest
      exact hrest
    | colored c w =>
      have hrest := ih (front ++ w)
      rw [Text.width_append, List.append_assoc] at hrest
      exact .cons ⟨rfl, front, textOf pieces, (List.append_assoc _ _ _).symm, rfl⟩ hrest

end Piece

namespace Language

/-- The assignments of a text come in order, stay inside the text and name slots of the palette. -/
lemma classify_scan_ordered (l : Language) (text : List Char) {slots : Nat} (h : 0 < slots) :
    ∃ as, classify (l.scan text) slots = .ok as ∧ as.Pairwise (fun a b => a.stop ≤ b.start) ∧
      ∀ a ∈ as, a.stop ≤ Text.width text ∧ a.bucket < slots := by
  obtain ⟨as, has, hkeyword, hapart⟩ := classify_scan l text h
  refine ⟨as, has, hapart, fun a ha => ⟨?_, ?_⟩⟩
  · obtain ⟨t, ht, hk, hstart, hlength⟩ := hkeyword a ha
    have hle := keyword_stop_le (mem_keywords_of_mem_scan ht hk)
    rwa [Token.stop, hstart, hlength] at hle
  · rw [← Except.ok.inj ((classify_eq h).symm.trans has)] at ha
    obtain ⟨u, -, rfl⟩ := List.mem_map.mp ha
    exact Nat.mod_lt _ h

end Language

namespace Range

lemma perm_flatMap_bucket (as : List Assignment) (slots : Nat) :
    ((List.range slots).flatMap fun bucket => as.filter (·.bucket == bucket)).Perm
      (as.filter (·.bucket < slots)) := by
  induction slots with
  | zero => simp
  | succ n ih =>
    have hsplit := List.filter_append_perm (fun a : Assignment => decide (a.bucket < n))
      (as.filter (·.bucket < n + 1))
    rw [List.filter_filter, List.filter_filter] at hsplit
    have hlow : as.filter (fun a => decide (a.bucket < n) && decide (a.bucket < n + 1)) =
        as.filter (·.bucket < n) := by
      apply List.filter_congr
      intro a _
      rw [← Bool.decide_and, decide_eq_decide]
      omega
    have hhigh : as.filter (fun a => !decide (a.bucket < n) && decide (a.bucket < n + 1)) =
        as.filter (·.bucket == n) := by
      apply List.filter_congr
      intro a _
      rw [← decide_not, ← Bool.decide_and, beq_eq_decide, decide_eq_decide]
      omega
    rw [hlow, hhigh] at hsplit
    rw [List.range_succ, List.flatMap_append, List.flatMap_singleton]
    exact (ih.append_right _).trans hsplit

lemma length_flatten_buckets {as : List Assignment} {slots : Nat} (h : ∀ a ∈ as, a.bucket < slots)
    (range : Assignment → Range) :
    ((List.range slots).map fun bucket =>
      (as.filter (·.bucket == bucket)).map range).flatten.length = as.length := by
  have hperm := (perm_flatMap_bucket as slots).length_eq
  rw [List.filter_eq_self.mpr fun a ha => decide_eq_true (h a ha)] at hperm
  rw [← List.flatMap_def, List.length_flatMap, ← hperm, List.length_flatMap]
  simp only [List.length_map]

end Range

namespace Highlighter

lemma assignments_eq_classify {h : Highlighter} {language : String}
    (hl : h.registry.contains language = true) :
    ∃ l : Language, ∀ text, h.assignments text language =
      classify (l.scan text) h.palette.size := by
  obtain ⟨l, hget⟩ := (h.registry.contains_iff_get language).mp hl
  refine ⟨l, fun text => ?_⟩
  rw [assignments, Registry.assign, hget]
  rfl

/-- In a language of the registry the text in colour and the lists of ranges show the same
stretches. The text has assignments, and is coloured just if none of them cuts a character; what is
written then is the text with a colour put in at the start and a reset at the end of each, and its
coloured pieces are their stretches, one by one and in their colours; and there is a list of ranges
for each colour, which holds the ranges of the assignments to it, in order. -/
theorem modes_agree (h : Highlighter) {language : String} (hl : h.registry.contains language = true)
    (text : List Char) (hsize : Text.width text < Word.count) (o : Overflow) :
    ∃ as, h.assignments text language = .ok as ∧ as.Pairwise (fun a b => a.stop ≤ b.start) ∧
      (∀ ink, (∃ out, renderColored? o ink h.palette text as = some out) ↔
        ∀ a ∈ as, Text.Boundary text a.start ∧ Text.Boundary text a.stop) ∧
      (∀ ink out, renderColored? o ink h.palette text as = some out →
        Text.Inserted 0 (as.flatMap fun a => ink.coloring (h.palette.color a.bucket) a.start a.stop)
          text out ∧
        ∃ pieces, Piece.ofText? o h.palette text as = some pieces ∧
          out = pieces.flatMap (Piece.render ink) ∧
          Piece.textOf pieces = text ∧
          List.Forall₂ (fun cw a => cw.1 = h.palette.color a.bucket ∧ Text.width cw.2 = a.length ∧
            Text.Slice text a.start cw.2) (Piece.colorings pieces) as) ∧
      ∃ buckets, h.ranges o text language = .ok (some buckets) ∧ buckets.length = h.palette.size ∧
        buckets.flatten.length = as.length ∧
        ∀ b < h.palette.size, ∃ rs, buckets[b]? = some rs ∧
          (as.filter (·.bucket == b)).mapM
            (fun a => (LineIndex.ofText text).range? o a.start a.length) = some rs := by
  obtain ⟨l, hassign⟩ := assignments_eq_classify hl
  obtain ⟨as, has, hapart, hinside⟩ := l.classify_scan_ordered text h.palette.size_pos
  have hok := (hassign text).trans has
  have hstop : ∀ a ∈ as, a.stop ≤ Text.width text := fun a ha => (hinside a ha).1
  have hword : ∀ a ∈ as, a.stop < Word.count := fun a ha => (hstop a ha).trans_lt hsize
  refine ⟨as, hok, hapart, fun ink => ?_, fun ink out hout => ?_,
    (List.range h.palette.size).map fun bucket =>
    (as.filter (·.bucket == bucket)).map (Assignment.range text), ?_, ?_,
      Range.length_flatten_buckets (fun a ha => (hinside a ha).2) _, fun b hb => ?_⟩
  · rw [← Piece.exists_ofText?_iff o h.palette hapart hstop hsize]
    simp [renderColored?]
  · obtain ⟨pieces, hpieces, rfl⟩ := Option.map_eq_some_iff.mp hout
    obtain ⟨htext, hmarks, hinserted⟩ := Piece.ofText?_ordered hapart hstop hsize hpieces
    refine ⟨hinserted ink, pieces, hpieces, rfl, htext, ?_⟩
    have hcolorings := Piece.colorings_marks [] pieces
    rw [List.nil_append, htext, Text.width_nil, hmarks, List.forall₂_map_right_iff] at hcolorings
    apply hcolorings.imp
    rintro ⟨c, w⟩ a ⟨hmark, hslice⟩
    obtain ⟨hlength, hcolor⟩ := Prod.mk.inj hmark
    exact ⟨hcolor.symm, (Nat.add_left_cancel hlength).symm, hslice⟩
  · rw [ranges, hok]
    exact congrArg Except.ok (Range.byBucket?_ofText o hword text h.palette.size)
  · simp
  · refine ⟨_, by rw [List.getElem?_map, List.getElem?_range hb, Option.map_some], ?_⟩
    exact Assignment.mapM_range? (fun a ha => hword a (List.mem_of_mem_filter ha)) o text

/-- A text with a character of two bytes and keywords on two of its lines. -/
theorem modes_agree_overlapping :
    let h : Highlighter := ⟨⟨[("overlapping", Language.overlapping)], []⟩, .standard⟩
    h.registry.contains "overlapping" = true ∧ Text.width "end if\n\u00e9 else".toList <
      Word.count ∧ ∃ buckets, h.assignments "end if\n\u00e9 else".toList "overlapping" =
        .ok [⟨0, 6, 0⟩, ⟨10, 4, 0⟩] ∧
      Text.Inserted 0 (Ink.color.coloring .yellow 0 6 ++ Ink.color.coloring .yellow 10 14)
        "end if\n\u00e9 else".toList
        "\x1b[38;5;3mend if\x1b[0m\n\u00e9 \x1b[38;5;3melse\x1b[0m".toList ∧
      h.ranges .fails "end if\n\u00e9 else".toList "overlapping" = .ok (some buckets) ∧
        buckets.length = 3 ∧ buckets.flatten.length = 2 := by
  intro h
  have hl : h.registry.contains "overlapping" = true := by decide +kernel
  have hsize : Text.width "end if\n\u00e9 else".toList < Word.count := by decide
  obtain ⟨as, has, -, -, hrender, buckets, hbuckets, hlength, htotal, -⟩ :=
    modes_agree h hl _ hsize .fails
  have hassign : h.assignments "end if\n\u00e9 else".toList "overlapping" =
      .ok [⟨0, 6, 0⟩, ⟨10, 4, 0⟩] := by cbv
  obtain rfl := Except.ok.inj (has.symm.trans hassign)
  have hout : renderColored? .fails .color h.palette "end if\n\u00e9 else".toList
        [⟨0, 6, 0⟩, ⟨10, 4, 0⟩] =
      some "\x1b[38;5;3mend if\x1b[0m\n\u00e9 \x1b[38;5;3melse\x1b[0m".toList := by decide +kernel
  exact ⟨hl, hsize, buckets, has, (hrender _ _ hout).1, hbuckets, hlength, htotal⟩

end Highlighter
end BlockHue
