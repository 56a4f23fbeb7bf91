import Mathlib
import BlockHue.Color
import BlockHue.Proofs.Text

/-! Lists of colours. Main statement: the first entry that names no colour is reported, an empty
list is reported if there is no entry, and else the colours of the entries make the palette, in
whatever way each of them is spelled. -/
namespace BlockHue
namespace Text

/-- What the letters of the basic alphabet have in common, small and capital. -/
lemma of_isLower_toLower {c : Char} (h : c.toLower.isLower = true) :
    isSpace c = false ∧ c ≠ ',' ∧ lowerChar c = [c.toLower] := by
  have hsmall : c.toNat < 128 := by
    unfold Char.toLower at h
    split at h
    next hupper => exact lt_of_le_of_lt (UInt32.le_iff_toNat_le.mp hupper.2) (by decide)
    next =>
      simp only [Char.isLower, Bool.and_eq_true, decide_eq_true_eq] at h
      exact lt_of_le_of_lt (UInt32.le_iff_toNat_le.mp h.2) (by decide)
  have hall : ∀ n < 128, (Char.ofNat n).toLower.isLower = true →
      isSpace (Char.ofNat n) = false ∧ Char.ofNat n ≠ ',' ∧ lowerChar (Char.ofNat n) =
        [(Char.ofNat n).toLower] := by
    decide +kernel
  have hc := hall c.toNat hsmall
  rw [Char.ofNat_toNat] at hc
  exact hc h

end Text

namespace Color

/-- The name of a colour, in small letters and with nothing between its words. -/
def name : Color → String
  | default => "default"
  | black => "black"
  | red => "red"
  | green => "green"
  | yellow => "yellow"
  | blue => "blue"
  | magenta => "magenta"
  | cyan => "cyan"
  | white => "white"
  | brightBlack => "brightblack"
  | brightRed => "brightred"
  | brightGreen => "brightgreen"
  | brightYellow => "brightyellow"
  | brightBlue => "brightblue"
  | brightMagenta => "brightmagenta"
  | brightCyan => "brightcyan"
  | brightWhite => "brightwhite"

lemma ofKey?_name (color : Color) : ofKey? color.name = some color := by cases color <;> rfl

lemma isLower_of_mem_name (color : Color) : ∀ c ∈ color.name.toList, c.isLower = true :=
  List.all_eq_true.mp (by cases color <;> rfl)

lemma name_ne_nil (color : Color) : color.name.toList ≠ [] := by cases color <;> decide

/-- The characters that may stand anywhere in a name. -/
def isJoint (c : Char) : Bool := c == '-' || c == '_' || c == ' '

/-- A word is the name of a colour in any letter case, with joints anywhere. -/
def Spells (color : Color) (word : List Char) : Prop :=
  (word.filter (!isJoint ·)).map Char.toLower = color.name.toList

namespace Spells

variable {word : List Char} {color : Color} (h : color.Spells word)
include h

lemma isLower_toLower {c : Char} (hc : c ∈ word) (hjoint : isJoint c = false) :
    c.toLower.isLower = true := by
  apply isLower_of_mem_name color
  rw [← h]
  exact List.mem_map_of_mem (List.mem_filter.mpr ⟨hc, by simp [hjoint]⟩)

lemma isJoint_of_isSpace {c : Char} (hc : c ∈ word) (hspace : Text.isSpace c = true) :
    isJoint c = true := by
  by_contra hjoint
  have hletter := (Text.of_isLower_toLower (h.isLower_toLower hc (by simpa using hjoint))).1
  rw [hspace] at hletter
  contradiction

lemma comma_not_mem : ',' ∉ word :=
  fun hmem => (Text.of_isLower_toLower (h.isLower_toLower hmem (by decide))).2.1 rfl

/-- Only joints are trimmed from a spelled name. -/
lemma filter_trim : (Text.trim word).filter (!isJoint ·) = word.filter (!isJoint ·) := by
  obtain ⟨before, after, hword, hbefore, hafter⟩ := (Text.trims_trim word).ends
  have hnone {part : List Char} (hpart : Text.isBlank part = true) (hsub : part ⊆ word) :
      part.filter (!isJoint ·) = [] := by
    rw [List.filter_eq_nil_iff]
    intro c hc
    simp [h.isJoint_of_isSpace (hsub hc) (Text.isBlank_iff.mp hpart c hc)]
  have hfront : before ⊆ word := by rw [hword]; simp
  have hback : after ⊆ word := by rw [hword]; simp
  conv_rhs => rw [hword]
  rw [List.filter_append, List.filter_append, hnone hbefore hfront, hnone hafter hback,
    List.nil_append, List.append_nil]

lemma trim_ne_nil : Text.trim word ≠ [] := by
  intro hnil
  have hname := h.filter_trim
  rw [hnil, List.filter_nil] at hname
  apply name_ne_nil color
  rw [← h, ← hname, List.map_nil]

lemma key_trim : key (Text.trim word) = color.name := by
  have hjoint : (fun c : Char => c != '-' && c != '_' && c != ' ') = (!isJoint ·) := by
    funext c
    simp [isJoint, bne]
  have hlower : (word.filter (!isJoint ·)).flatMap Text.lowerChar =
      (word.filter (!isJoint ·)).map Char.toLower := by
    rw [List.map_eq_flatMap]
    apply List.flatMap_congr
    intro c hc
    obtain ⟨hmem, hc⟩ := List.mem_filter.mp hc
    exact (Text.of_isLower_toLower (h.isLower_toLower hmem (by simpa using hc))).2.2
  rw [key, Text.trim_trim, hjoint, h.filter_trim, hlower, h, String.ofList_toList]

lemma ofName?_trim : ofName? (Text.trim word) = some color := by
  rw [ofName?, h.key_trim, ofKey?_name]

end Spells

end Color

namespace Palette

lemma colorsOfNames_cons {name : List Char} {color : Color} (h : Color.ofName? name = some color)
    (names : List (List Char)) :
    colorsOfNames (name :: names) = (colorsOfNames names).map (color :: ·) := by
  rw [colorsOfNames, h]

lemma colorsOfNames_eq_ok_iff {names : List (List Char)} {colors : List Color} :
    colorsOfNames names = .ok colors ↔ names.map Color.ofName? = colors.map some := by
  induction names generalizing colors with
  | nil => cases colors <;> simp [colorsOfNames]
  | cons name names ih =>
    cases hname : Color.ofName? name with
    | none => cases colors <;> simp [colorsOfNames, hname]
    | some color =>
      rw [colorsOfNames_cons hname, List.map_cons, hname]
      cases colors with
      | nil => cases colorsOfNames names <;> simp [Except.map]
      | cons c colors =>
        rw [List.map_cons, List.cons.injEq, Option.some.injEq, ← ih]
        cases colorsOfNames names <;> simp [Except.map]

/-- The first name without a colour. -/
def firstUnknown? (names : List (List Char)) : Option (List Char) :=
  names.find? fun name => (Color.ofName? name).isNone

lemma colorsOfNames_eq_error_iff {names : List (List Char)} {e : Error} :
    colorsOfNames names = .error e ↔ ∃ name, firstUnknown? names = some name ∧
      e = .unknownColor (String.ofList name) := by
  induction names with
  | nil => simp [colorsOfNames, firstUnknown?]
  | cons name names ih =>
    cases hname : Color.ofName? name with
    | none => simp [colorsOfNames, firstUnknown?, hname, eq_comm]
    | some color =>
      rw [colorsOfNames_cons hname, firstUnknown?, List.find?_cons_of_neg (by simp [hname]),
        ← firstUnknown?, ← ih]
      cases colorsOfNames names <;> simp [Except.map]

lemma ofColors_eq_ok_iff {colors : List Color} {palette : Palette} :
    ofColors colors = .ok palette ↔ colors = palette.colors := by
  obtain ⟨others, hothers⟩ := palette
  rw [ofColors]
  split
  next hnil => simp [hnil, hothers.symm]
  next => simp

lemma ofColors_eq_error_iff {colors : List Color} {e : Error} :
    ofColors colors = .error e ↔ colors = [] ∧ e = .emptyPalette := by
  rw [ofColors]
  split
  next hnil => simp [hnil, eq_comm]
  next hne => simp [hne]

lemma ofList_eq_ok_iff {list : List Char} {palette : Palette} :
    ofList list = .ok palette ↔ (entries list).map Color.ofName? = palette.colors.map some := by
  rw [← colorsOfNames_eq_ok_iff, ofList, ofNames]
  cases colorsOfNames (entries list) with
  | error e => simp [Except.bind]
  | ok colors => simp [Except.bind, ofColors_eq_ok_iff]

lemma ofList_eq_unknownColor_iff {list : List Char} {name : String} :
    ofList list = .error (.unknownColor name) ↔
      ∃ entry, firstUnknown? (entries list) = some entry ∧ name = String.ofList entry := by
  have herror : colorsOfNames (entries list) = .error (.unknownColor name) ↔
      ∃ entry, firstUnknown? (entries list) = some entry ∧ name = String.ofList entry := by
    rw [colorsOfNames_eq_error_iff]
    simp only [Error.unknownColor.injEq]
  rw [← herror, ofList, ofNames]
  cases colorsOfNames (entries list) with
  | error e => simp [Except.bind]
  | ok colors => simp [Except.bind, ofColors_eq_error_iff]

lemma ofList_eq_emptyPalette_iff {list : List Char} :
    ofList list = .error .emptyPalette ↔ entries list = [] := by
  rw [ofList, ofNames]
  cases h : colorsOfNames (entries list) with
  | error e =>
    obtain ⟨name, hname, rfl⟩ := colorsOfNames_eq_error_iff.mp h
    have hne : entries list ≠ [] := List.ne_nil_of_mem (List.mem_of_find?_eq_some hname)
    simp [Except.bind, hne]
  | ok colors =>
    have hlength := congrArg List.length (colorsOfNames_eq_ok_iff.mp h)
    rw [List.length_map, List.length_map] at hlength
    simp [Except.bind, ofColors_eq_error_iff, ← List.length_eq_zero_iff, hlength]

lemma entries_append (a b : List Char) : entries (a ++ ',' :: b) = entries a ++ entries b := by
  rw [entries, Text.splitOn_append_cons, List.map_append, List.filter_append, entries, entries]

/-- Commas in a row count as one. -/
lemma entries_replicate_append (n : Nat) (list : List Char) :
    entries (List.replicate n ',' ++ list) = entries list := by
  induction n with
  | zero => rfl
  | succ n ih =>
    rw [List.replicate_succ, List.cons_append, ← List.nil_append (',' :: _), entries_append, ih]
    rfl

/-- The parts of a list between its commas, and the entries that they make. -/
lemma exists_parts (list : List Char) :
    ∃ parts words, list = [','].intercalate parts ∧ (∀ part ∈ parts, ',' ∉ part) ∧
      List.Forall₂ Text.Trims parts words ∧
      entries list = words.filter (!·.isEmpty) := by
  refine ⟨Text.splitOn ',' list, (Text.splitOn ',' list).map Text.trim, ?_, fun part =>
    Text.not_mem_of_mem_splitOn, ?_, rfl⟩
  · rw [Text.splitOn_eq, List.intercalate_splitOn]
  · rw [List.forall₂_map_right_iff, List.forall₂_same]
    exact fun part _ => Text.trims_trim part

/-- A colour in a list, with white space around its name. -/
structure Entry where
  color : Color
  before : List Char
  word : List Char
  after : List Char
  before_blank : Text.isBlank before = true
  after_blank : Text.isBlank after = true
  spells : color.Spells word

def Entry.text (e : Entry) : List Char := e.before ++ e.word ++ e.after

lemma Entry.comma_not_mem (e : Entry) : ',' ∉ e.text := by
  have hcomma : Text.isSpace ',' = false := by decide
  simp [text, Text.not_mem_of_isBlank hcomma e.before_blank,
    Text.not_mem_of_isBlank hcomma e.after_blank, e.spells.comma_not_mem]

lemma Entry.entries_text (e : Entry) : entries e.text = [Text.trim e.word] := by
  have htrim : Text.trim e.text = Text.trim e.word :=
    Text.trim_append_append e.before_blank e.after_blank e.word
  rw [entries, Text.splitOn_of_not_mem e.comma_not_mem, List.map_singleton, htrim]
  simp [e.spells.trim_ne_nil]

/-- A list of colours; each of the others stands behind a comma and further ones. -/
def join : Entry → List (Nat × Entry) → List Char
  | e, [] => e.text
  | e, (extra, next) :: others => e.text ++ ',' :: (List.replicate extra ',' ++ join next others)

lemma map_ofName?_entries_join (e : Entry) (others : List (Nat × Entry)) :
    (entries (join e others)).map Color.ofName? = (e.color :: others.map (·.2.color)).map some := by
  induction others generalizing e with
  | nil => simp [join, e.entries_text, e.spells.ofName?_trim]
  | cons other others ih =>
    obtain ⟨extra, next⟩ := other
    rw [join, entries_append, entries_replicate_append, e.entries_text, List.map_append, ih]
    simp [e.spells.ofName?_trim]

/-- The entries of a list are its parts between commas, trimmed, without the blank ones. The first
entry that names no colour is reported; an empty palette is reported just if there is no entry; and
else the palette has the colours of the entries in order. So colours can be spelled in any letter
case with joints anywhere, and stand between white space and commas. -/
theorem ofList_decodes (list : List Char) (e : Entry) (others : List (Nat × Entry)) :
    (∃ parts words, list = [','].intercalate parts ∧ (∀ part ∈ parts, ',' ∉ part) ∧
      List.Forall₂ Text.Trims parts words ∧
        entries list = words.filter (!·.isEmpty)) ∧
      (∀ name, ofList list = .error (.unknownColor name) ↔
        ∃ entry, firstUnknown? (entries list) = some entry ∧ name = String.ofList entry) ∧
      (ofList list = .error .emptyPalette ↔ entries list = []) ∧
      (∀ palette, ofList list = .ok palette ↔ (entries list).map Color.ofName? =
        palette.colors.map some) ∧
      ofList (join e others) = .ok ⟨e.color :: others.map (·.2.color), List.cons_ne_nil _ _⟩ :=
  ⟨exists_parts list,
    fun _ => ofList_eq_unknownColor_iff, ofList_eq_emptyPalette_iff,
      fun _ => ofList_eq_ok_iff, ofList_eq_ok_iff.mpr (map_ofName?_entries_join e others)⟩

/-- Two colours between blanks of several kinds and three commas. -/
theorem ofList_decodes_spelled :
    (ofList "\tB-right_r E d,,, \u3000CYAN\r\n".toList).map colors = .ok [.brightRed, .cyan] := by
  have hlist :=
    (ofList_decodes [] ⟨.brightRed, "\t".toList, "B-right_r E d".toList, [], rfl, rfl, rfl⟩
      [(2, ⟨.cyan, " \u3000".toList, "CYAN".toList, "\r\n".toList, rfl, rfl, rfl⟩)]).2.2.2.2
  exact congrArg (Except.map colors) hlist

end Palette

end BlockHue
