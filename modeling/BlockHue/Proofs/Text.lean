import Mathlib
import BlockHue.Text.Space

/-! Parts of a text between separators, and texts without the white space at their ends. -/
namespace BlockHue
namespace Text

lemma splitOn_eq (sep : Char) (cs : List Char) : splitOn sep cs = List.splitOn sep cs := by
  induction cs with
  | nil => rfl
  | cons c cs ih =>
    obtain ⟨part, parts, hparts⟩ := List.exists_cons_of_ne_nil (List.splitOnP_ne_nil (· == sep) cs)
    rw [splitOn, ih, List.splitOn_eq_splitOnP, List.splitOn_eq_splitOnP,
      List.splitOnP_cons_eq_if_modifyHead, hparts]
    split <;> rfl

/-- No part holds the separator. -/
lemma not_mem_of_mem_splitOn {sep : Char} {cs part : List Char} (h : part ∈ splitOn sep cs) :
    sep ∉ part := by
  induction cs generalizing part with
  | nil =>
    rw [List.mem_singleton.mp h]
    exact List.not_mem_nil
  | cons c cs ih =>
    rw [splitOn] at h
    split at h
    · rcases List.mem_cons.mp h with rfl | h
      · exact List.not_mem_nil
      · exact ih h
    next hc =>
      have hne : sep ≠ c := fun heq => hc (by simp [heq])
      split at h
      · rw [List.mem_singleton.mp h]
        simpa using hne
      next first parts hparts =>
        rcases List.mem_cons.mp h with rfl | h
        · have hfirst : sep ∉ first := ih (hparts ▸ List.mem_cons_self)
          simp [hne, hfirst]
        · exact ih (hparts ▸ List.mem_cons_of_mem first h)

/-- Parts without the separator are the parts of a text just if the text joins them. -/
lemma splitOn_eq_iff {sep : Char} {cs : List Char} {parts : List (List Char)} (hne : parts ≠ [])
    (h : ∀ part ∈ parts, sep ∉ part) : splitOn sep cs = parts ↔ cs = [sep].intercalate parts := by
  rw [splitOn_eq]
  constructor
  · rintro rfl
    exact (List.intercalate_splitOn sep).symm
  · rintro rfl
    exact List.splitOn_intercalate sep h hne

/-- The text of some lines. -/
def unlines (lines : List (List Char)) : List Char := ['\n'].intercalate lines

/-- The parts at a separator are those in front of it and those behind it. -/
lemma splitOn_append_cons (sep : Char) (a b : List Char) :
    splitOn sep (a ++ sep :: b) = splitOn sep a ++ splitOn sep b := by
  simp only [splitOn_eq, List.splitOn_eq_splitOnP]
  exact List.splitOnP_append_cons a b (beq_self_eq_true sep)

lemma splitOn_of_not_mem {sep : Char} {cs : List Char} (h : sep ∉ cs) : splitOn sep cs = [cs] := by
  rw [splitOn_eq_iff (List.cons_ne_nil _ _) (by simpa using h)]
  simp [List.intercalate]

lemma isBlank_iff {cs : List Char} : isBlank cs = true ↔ ∀ c ∈ cs, isSpace c = true :=
  List.all_eq_true

lemma not_mem_of_isBlank {c : Char} (hc : isSpace c = false) {cs : List Char}
    (h : isBlank cs = true) : c ∉ cs := by
  intro hmem
  rw [isBlank_iff.mp h c hmem] at hc
  contradiction

lemma isBlank_append (a b : List Char) : isBlank (a ++ b) = (isBlank a && isBlank b) :=
  List.all_append

lemma trimLeft_append {a : List Char} (h : isBlank a = true) (b : List Char) :
    trimLeft (a ++ b) = trimLeft b :=
  List.dropWhile_append_of_pos (isBlank_iff.mp h)

lemma trimLeft_eq_self {cs : List Char} (h : ∀ c ∈ cs.head?, isSpace c = false) :
    trimLeft cs = cs := by
  cases cs with
  | nil => rfl
  | cons c cs => exact List.dropWhile_cons_of_neg (by simp [h c rfl])

lemma trimRight_eq (cs : List Char) : trimRight cs = (trimLeft cs.reverse).reverse := rfl

/-- The white space in front of a text and the rest. -/
lemma exists_trimLeft (cs : List Char) :
    (∃ before, cs = before ++ trimLeft cs ∧ isBlank before = true) ∧ ∀ c ∈ (trimLeft cs).head?,
      isSpace c = false := by
  refine ⟨⟨cs.takeWhile isSpace, List.takeWhile_append_dropWhile.symm, ?_⟩, ?_⟩
  · exact isBlank_iff.mpr fun c hc => List.mem_takeWhile_imp hc
  · intro c hc
    have hnot := List.head?_dropWhile_not isSpace cs
    rw [trimLeft] at hc
    rwa [Option.mem_def.mp hc] at hnot

lemma exists_trimRight (cs : List Char) :
    (∃ after, cs = trimRight cs ++ after ∧ isBlank after = true) ∧ ∀ c ∈ (trimRight cs).getLast?,
      isSpace c = false := by
  obtain ⟨⟨before, hcs, hbefore⟩, hhead⟩ := exists_trimLeft cs.reverse
  refine ⟨⟨before.reverse, ?_, by simpa [isBlank] using hbefore⟩, ?_⟩
  · rw [trimRight_eq, ← List.reverse_append, ← hcs, List.reverse_reverse]
  · rwa [trimRight_eq, List.getLast?_reverse]

/-- `core` is what is left of a text without the white space at its ends. -/
structure Trims (cs core : List Char) : Prop where
  ends : ∃ before after, cs = before ++ core ++ after ∧ isBlank before = true ∧ isBlank after = true
  head : ∀ c ∈ core.head?, isSpace c = false
  last : ∀ c ∈ core.getLast?, isSpace c = false

lemma trims_trim (cs : List Char) : Trims cs (trim cs) := by
  obtain ⟨⟨before, hleft, hbefore⟩, hhead⟩ := exists_trimLeft cs
  obtain ⟨⟨after, hright, hafter⟩, hlast⟩ := exists_trimRight (trimLeft cs)
  refine ⟨⟨before, after, ?_, hbefore, hafter⟩, ?_, hlast⟩
  · rw [List.append_assoc, trim, ← hright, ← hleft]
  · intro c hc
    apply hhead
    rw [hright, List.head?_append, ← trim, Option.mem_def.mp hc]
    rfl

lemma Trims.eq {cs core : List Char} (h : Trims cs core) : trim cs = core := by
  obtain ⟨⟨before, after, rfl, hbefore, hafter⟩, hhead, hlast⟩ := h
  have hreverse : isBlank after.reverse = true := by simpa [isBlank] using hafter
  have hright : trimRight (core ++ after) = core := by
    rw [trimRight_eq, List.reverse_append, trimLeft_append hreverse, trimLeft_eq_self,
      List.reverse_reverse]
    simpa using hlast
  rw [trim, List.append_assoc, trimLeft_append hbefore]
  cases core with
  | nil =>
    have hnil : trimLeft after = [] := List.dropWhile_eq_nil_iff.mpr (isBlank_iff.mp hafter)
    rw [List.nil_append, hnil]
    rfl
  | cons c core => rw [trimLeft_eq_self (by simpa using hhead), hright]

lemma trim_trim (cs : List Char) : trim (trim cs) = trim cs :=
  Trims.eq ⟨⟨[], [], by simp, rfl, rfl⟩, (trims_trim cs).head, (trims_trim cs).last⟩

/-- White space around a text does not count. -/
lemma trim_append_append {before after : List Char} (hbefore : isBlank before = true)
    (hafter : isBlank after = true) (cs : List Char) : trim (before ++ cs ++ after) = trim cs := by
  obtain ⟨⟨front, back, hcs, hfront, hback⟩, hhead, hlast⟩ := trims_trim cs
  refine Trims.eq ⟨⟨before ++ front, back ++ after, ?_, ?_, ?_⟩, hhead, hlast⟩
  · conv_lhs => rw [hcs]
    simp only [List.append_assoc]
  · rw [isBlank_append, hbefore, hfront, Bool.and_self]
  · rw [isBlank_append, hback, hafter, Bool.and_self]

end Text
end BlockHue
