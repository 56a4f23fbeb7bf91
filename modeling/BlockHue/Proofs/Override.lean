import Mathlib
import BlockHue.Proofs.Settings

/-! The text of a settings file. Main statement: what is written below a text holds against it, key
by key, and a line sets one key at most, which is the text in front of its first equals sign. -/
namespace BlockHue
namespace Text

/-- A text without the white space at its ends starts with its first character that is none. -/
lemma head?_trim (cs : List Char) : (trim cs).head? = cs.find? (!isSpace ·) := by
  obtain ⟨⟨before, after, hcs, hbefore, hafter⟩, hhead, -⟩ := trims_trim cs
  have hnone {a : List Char} (ha : isBlank a = true) : a.find? (!isSpace ·) = none := by
    simpa using isBlank_iff.mp ha
  have hcore : (trim cs).find? (!isSpace ·) = (trim cs).head? := by
    cases h : trim cs with
    | nil => rfl
    | cons c core =>
      have hc : isSpace c = false := hhead c (by rw [h]; rfl)
      simp [hc]
  conv_rhs => rw [hcs]
  rw [List.find?_append, List.find?_append, hnone hbefore, hnone hafter, hcore, Option.none_or,
    Option.or_none]

lemma mem_of_mem_trim {cs : List Char} {c : Char} (h : c ∈ trim cs) : c ∈ cs := by
  obtain ⟨before, after, hcs, -, -⟩ := (trims_trim cs).ends
  rw [hcs]
  simp [h]

/-- At a character that is no white space, the ends of a text are trimmed apart. -/
lemma trim_append_cons {c : Char} (hc : isSpace c = false) (a b : List Char) :
    trim (a ++ c :: b) = trimLeft a ++ c :: trimRight b := by
  obtain ⟨⟨before, ha, hbefore⟩, hhead⟩ := exists_trimLeft a
  obtain ⟨⟨after, hb, hafter⟩, hlast⟩ := exists_trimRight b
  apply Trims.eq
  refine ⟨⟨before, after, ?_, hbefore, hafter⟩, ?_, ?_⟩
  · conv_lhs => rw [ha, hb]
    simp
  · cases h : trimLeft a with
    | nil => simpa using hc
    | cons d rest => simpa using hhead d (by rw [h]; rfl)
  · cases h : trimRight b with
    | nil => simpa using hc
    | cons d rest => simpa [h] using hlast

lemma trim_trimLeft (cs : List Char) : trim (trimLeft cs) = trim cs := by
  obtain ⟨before, hcs, hbefore⟩ := (exists_trimLeft cs).1
  have h := trim_append_append hbefore (show isBlank [] = true from rfl) (trimLeft cs)
  rw [List.append_nil, ← hcs] at h
  exact h.symm

lemma trim_trimRight (cs : List Char) : trim (trimRight cs) = trim cs := by
  obtain ⟨after, hcs, hafter⟩ := (exists_trimRight cs).1
  have h := trim_append_append (show isBlank [] = true from rfl) hafter (trimRight cs)
  rw [List.nil_append, ← hcs] at h
  exact h.symm

end Text

namespace Settings

lemma parse_append (a b : List Char) : parse (a ++ '\n' :: b) = parse a ++ parse b := by
  rw [parse, Text.splitOn_append_cons, List.filterMap_append, parse, parse]

lemma parse_of_not_mem {line : List Char} (h : '\n' ∉ line) :
    parse line = (parseLine line).toList := by
  rw [parse, Text.splitOn_of_not_mem h]
  cases hline : parseLine line <;> simp [hline]

/-- The first character of a comment that is no white space is a hash. -/
def isComment (line : List Char) : Bool := line.find? (!Text.isSpace ·) == some '#'

lemma parseLine_of_comment {line : List Char} (h : isComment line = true) :
    parseLine line = none := by
  rw [isComment, ← Text.head?_trim] at h
  rw [parseLine]
  simp [h]

lemma bne_equals_of_not_mem {cs : List Char} (h : '=' ∉ cs) : ∀ c ∈ cs, (c != '=') = true := by
  intro c hc
  simpa using fun heq : c = '=' => h (heq ▸ hc)

lemma parseLine_of_not_mem {line : List Char} (h : '=' ∉ line) : parseLine line = none := by
  have hall := bne_equals_of_not_mem fun hmem => h (Text.mem_of_mem_trim hmem)
  have hspan : (Text.trim line).span (· != '=') = (Text.trim line, []) := by
    rw [List.span_eq_takeWhile_dropWhile, List.takeWhile_eq_self_iff.mpr hall,
      List.dropWhile_eq_nil_iff.mpr hall]
  simp only [parseLine, hspan]
  split <;> rfl

/-- A line is cut at its first equals sign. -/
lemma span_append_cons {key : List Char} (h : '=' ∉ key) (value : List Char) :
    (key ++ '=' :: value).span (· != '=') = (key, '=' :: value) := by
  have hall := bne_equals_of_not_mem h
  rw [List.span_eq_takeWhile_dropWhile, List.takeWhile_append_of_pos hall,
    List.dropWhile_append_of_pos hall]
  simp

lemma parseLine_append_cons {key value : List Char} (hkey : '=' ∉ key)
    (h : isComment (key ++ '=' :: value) = false) :
    parseLine (key ++ '=' :: value) =
      some (String.ofList (Text.lower (Text.trim key)), Text.trim value) := by
  have hleft : '=' ∉ Text.trimLeft key := fun hmem => hkey (List.dropWhile_sublist _ |>.mem hmem)
  rw [isComment, ← Text.head?_trim] at h
  rw [parseLine, h]
  simp only [Text.trim_append_cons (show Text.isSpace '=' = false by decide),
    span_append_cons hleft, Text.trim_trimLeft, Text.trim_trimRight]
  rfl

/-- What is set below a text holds against it. A line sets one key at most: nothing if it is blank,
a comment or without an equals sign, and else the lowercase of what stands in front of the first
equals sign, to what stands behind it. -/
theorem later_text_holds (a b : List Char) (key : String) {line : List Char} (hline : '\n' ∉ line) :
    lookup (parse (a ++ '\n' :: b)) key = (lookup (parse b) key).or (lookup (parse a) key) ∧
      parse line =
        if Text.isBlank line ∨ isComment line ∨ '=' ∉ line then []
        else [(String.ofList (Text.lower (Text.trim (line.takeWhile (· != '=')))),
          Text.trim (line.dropWhile (· != '=')).tail)] := by
  refine ⟨by rw [parse_append, lookup_append], ?_⟩
  rw [parse_of_not_mem hline]
  split
  next hnone =>
    obtain hblank | hcomment | hequals := hnone
    · have hequals : '=' ∉ line := Text.not_mem_of_isBlank (by decide) hblank
      rw [parseLine_of_not_mem hequals, Option.toList_none]
    · rw [parseLine_of_comment hcomment, Option.toList_none]
    · rw [parseLine_of_not_mem hequals, Option.toList_none]
  next hsome =>
    push Not at hsome
    obtain ⟨-, hcomment, hmem⟩ := hsome
    obtain ⟨front, value, rfl, hfront⟩ := List.eq_append_cons_of_mem hmem
    obtain ⟨htake, hdrop⟩ :=
      Prod.mk.inj (List.span_eq_takeWhile_dropWhile _ _ ▸ span_append_cons hfront value)
    rw [parseLine_append_cons hfront (by simpa using hcomment), htake, hdrop, List.tail_cons,
      Option.toList_some]

/-- A line that ends in a carriage return, with capitals in its key and a second equals sign and a
hash in its value. -/
theorem later_text_holds_mixed :
    '\n' ∉ " Colors = a=b # c\r".toList ∧
      lookup (parse ("colors = red\r".toList ++ '\n' :: " Colors = a=b # c\r".toList)) "colors" =
        some "a=b # c".toList ∧
      parse " Colors = a=b # c\r".toList = [("colors", "a=b # c".toList)] := by
  have hline : '\n' ∉ " Colors = a=b # c\r".toList := by decide
  obtain ⟨hlookup, hparse⟩ :=
    later_text_holds "colors = red\r".toList " Colors = a=b # c\r".toList "colors" hline
  exact ⟨hline, hlookup.trans (by decide +kernel), hparse.trans (by decide +kernel)⟩

end Settings
end BlockHue
