import BlockHue.Position
import BlockHue.Proofs.Place

/-! Lines and columns by counting. The position of an offset is the one behind the characters that
begin before the offset. Main statement: a cursor finds it from wherever it stands in the text, so
that a cursor in use answers as a new one does. -/
namespace BlockHue
namespace Text

/-- The characters of a text that begin before an offset. -/
def reach : Nat → List Char → List Char
  | _, [] => []
  | n, c :: cs => if n = 0 then [] else c :: reach (n - c.utf8Size) cs

lemma reach_zero (cs : List Char) : reach 0 cs = [] := by cases cs <;> simp [reach]

lemma reach_isPrefix (n : Nat) (cs : List Char) : reach n cs <+: cs := by
  induction cs generalizing n with
  | nil => exact List.prefix_refl _
  | cons c cs ih =>
    rw [reach]
    split
    · exact List.nil_prefix
    · exact List.cons_prefix_cons.mpr ⟨rfl, ih _⟩

@[simp] lemma reach_append_drop (n : Nat) (cs : List Char) :
    reach n cs ++ cs.drop (reach n cs).length = cs :=
  List.prefix_iff_eq_append.mp (reach_isPrefix n cs)

/-- An offset behind the front part reaches into the back part. -/
lemma reach_append {n : Nat} {a : List Char} (h : width a ≤ n) (b : List Char) :
    reach n (a ++ b) = a ++ reach (n - width a) b := by
  induction a generalizing n with
  | nil => rfl
  | cons c a ih =>
    have hc := c.utf8Size_pos
    rw [width_cons] at h
    have hn : n ≠ 0 := by omega
    rw [List.cons_append, reach, if_neg hn, ih (by omega), width_cons, Nat.sub_sub,
      List.cons_append]

lemma reach_append_of_le {n : Nat} {a : List Char} (h : n ≤ width a) (b : List Char) :
    reach n (a ++ b) = reach n a := by
  induction a generalizing n with
  | nil =>
    obtain rfl : n = 0 := Nat.le_zero.mp h
    rw [reach_zero, reach_zero]
  | cons c a ih =>
    rw [width_cons] at h
    rw [List.cons_append, reach, reach, ih (by omega)]

/-- An offset beyond the end of the text reaches its end. -/
lemma reach_min (n : Nat) (cs : List Char) : reach (min n (width cs)) cs = reach n cs := by
  rcases Nat.le_total n (width cs) with h | h
  · rw [Nat.min_eq_left h]
  · have hall {m : Nat} (hm : width cs ≤ m) : reach m cs = cs := by
      have happend := reach_append hm []
      rwa [List.append_nil, reach, List.append_nil] at happend
    rw [Nat.min_eq_right h, hall le_rfl, hall h]

end Text

namespace Position

/-- The position behind one more character. -/
def next (p : Position) (c : Char) : Position :=
  if c = '\n' then ⟨p.line + 1, 0⟩ else ⟨p.line, p.column + 1⟩

/-- The position behind the first characters of a text. -/
def behind (front : List Char) : Position := front.foldl next ⟨0, 0⟩

lemma behind_append (a b : List Char) : behind (a ++ b) = b.foldl next (behind a) :=
  List.foldl_append

lemma behind_append_singleton (a : List Char) (c : Char) : behind (a ++ [c]) = (behind a).next c :=
  behind_append a [c]

lemma line_foldl (p : Position) (cs : List Char) :
    (cs.foldl next p).line = p.line + cs.count '\n' := by
  induction cs generalizing p with
  | nil => rfl
  | cons c cs ih =>
    rw [List.foldl_cons, ih]
    by_cases hc : c = '\n'
    · simp [next, hc, Nat.add_assoc, Nat.add_comm 1]
    · simp [next, hc]

lemma line_behind_append (a b : List Char) :
    (behind (a ++ b)).line = (behind a).line + b.count '\n' := by
  rw [behind_append, line_foldl]

end Position

open Position Text

namespace Cursor

/-- The cursor between the front part and the rest of a text. -/
def between (front rest : List Char) : Cursor := ⟨width front, behind front, rest⟩

/-- The cursor at an offset of a text. -/
def standing (text : List Char) (n : Nat) : Cursor :=
  between (reach n text) (text.drop (reach n text).length)

lemma advance_between {target : Nat} {front rest : List Char}
    (h : '\n' ∉ reach (target - width front) rest) :
    advance target (width front) (behind front) rest =
      between (front ++ reach (target - width front) rest)
        (rest.drop (reach (target - width front) rest).length) := by
  induction rest generalizing front with
  | nil => simp [advance, reach, between]
  | cons c cs ih =>
    rw [advance]
    split
    next hle =>
      have hzero : target - width front = 0 := by omega
      simp [hzero, reach_zero, between]
    next hlt =>
      have hne : target - width front ≠ 0 := by omega
      have hsub : target - width front - c.utf8Size = target - width (front ++ [c]) := by
        rw [width_append, width_cons, width_nil]
        omega
      rw [reach, if_neg hne, hsub, List.mem_cons, not_or] at h
      have hnext : behind (front ++ [c]) = ⟨(behind front).line, (behind front).column + 1⟩ := by
        rw [behind_append_singleton, next, if_neg (Ne.symm h.1)]
      have hwidth : width front + c.utf8Size = width (front ++ [c]) := by simp
      rw [hwidth, ← hnext, ih h.2, reach, if_neg hne, hsub]
      simp

end Cursor

/-- Of the lines behind the newlines of `rest`, the last that starts at or before an offset: no
newline lies between its start and the offset. `head` ends where a line starts, and `tail` is what
that line has in front of `rest`. -/
lemma Line.following_spec {q : Nat} (head tail rest : List Char) (hhead : (behind head).column = 0)
    (htail : '\n' ∉ tail) (hq : width head ≤ q) :
    ∃ front back, head ++ tail ++ rest = front ++ back ∧
      ((Line.following (width (head ++ tail)) rest).takeWhile (·.start ≤ q)).length +
        (behind head).line = (behind front).line ∧
      ((Line.following (width (head ++ tail)) rest).takeWhile (·.start ≤ q)).getLastD
        ⟨width head, tail ++ rest⟩ = ⟨width front, back⟩ ∧
      (behind front).column = 0 ∧ width front ≤ q ∧ '\n' ∉ reach (q - width front) back := by
  induction rest generalizing head tail with
  | nil =>
    refine ⟨head, tail, by simp, by simp [following], by simp [following], hhead, hq, ?_⟩
    exact fun hmem => htail ((reach_isPrefix _ _).subset hmem)
  | cons c cs ih =>
    by_cases hc : c = '\n'
    · subst hc
      have hfollowing : following (width (head ++ tail)) ('\n' :: cs) =
          ⟨width (head ++ tail ++ ['\n']), cs⟩ ::
            following (width (head ++ tail ++ ['\n'])) cs := by
        simp [following, Nat.add_assoc]
      rw [hfollowing, List.takeWhile_cons]
      have hline : (behind (head ++ tail ++ ['\n'])).line = (behind head).line + 1 := by
        simp [line_behind_append, List.count_eq_zero.mpr htail]
      by_cases hnext : width (head ++ tail ++ ['\n']) ≤ q
      · obtain ⟨front, back, htext, hnumber, hlast, hrest⟩ :=
          ih (head ++ tail ++ ['\n']) [] (by rw [behind_append_singleton, next, if_pos rfl])
            List.not_mem_nil hnext
        rw [List.append_nil] at htext hnumber hlast
        refine ⟨front, back, by rw [← htext]; simp, ?_, ?_, hrest⟩
        · rw [if_pos (by simpa using hnext), List.length_cons]
          omega
        · rw [if_pos (by simpa using hnext), List.getLastD_cons]
          exact hlast
      · rw [if_neg (by simpa using hnext)]
        refine ⟨head, tail ++ '\n' :: cs, by simp, by simp, rfl, hhead, hq, ?_⟩
        have hle : q - width head ≤ width tail := by
          have hsize : '\n'.utf8Size = 1 := rfl
          simp only [width_append, width_cons, width_nil, hsize] at hnext
          omega
        rw [reach_append_of_le hle]
        exact fun hmem => htail ((reach_isPrefix _ _).subset hmem)
    · have hfollowing : following (width (head ++ tail)) (c :: cs) =
          following (width (head ++ (tail ++ [c]))) cs := by
        simp [following, hc, Nat.add_assoc]
      have htail' : '\n' ∉ tail ++ [c] := by
        rw [List.mem_append, List.mem_singleton, not_or]
        exact ⟨htail, Ne.symm hc⟩
      have h := ih head (tail ++ [c]) hhead htail' hq
      rw [← hfollowing] at h
      simpa using h

/-- The line of an offset starts in front of it, with no newline between. -/
lemma LineIndex.lineAt_ofText (text : List Char) (q : Nat) :
    ∃ front back, text = front ++ back ∧ (ofText text).lineAt q =
      ((behind front).line, ⟨width front, back⟩) ∧
      (behind front).column = 0 ∧ width front ≤ q ∧ '\n' ∉ reach (q - width front) back := by
  obtain ⟨front, back, htext, hnumber, hlast, hrest⟩ :=
    Line.following_spec [] [] text rfl List.not_mem_nil (Nat.zero_le q)
  refine ⟨front, back, htext, ?_, hrest⟩
  exact Prod.ext hnumber hlast

namespace Cursor

/-- Wherever a cursor stands in a text, it moves to the place of an offset. -/
lemma moveTo_between (front rest : List Char) (n : Nat) :
    (between front rest).moveTo (.ofText (front ++ rest)) n = standing (front ++ rest) n := by
  generalize htext : front ++ rest = text
  obtain ⟨start, line, hsplit, hline, hcolumn, hle, hnone⟩ :=
    LineIndex.lineAt_ofText text (min n (width text))
  have hsize : (LineIndex.ofText text).size = width text := rfl
  have hstand (a b : List Char) (ha : a ++ b = text) (hab : width a ≤ min n (width text))
      (hfree : '\n' ∉ reach (min n (width text) - width a) b) :
      advance (min n (width text)) (width a) (behind a) b = standing text n := by
    have hreach : reach n text = a ++ reach (min n (width text) - width a) b := by
      rw [← reach_min, ← ha, reach_append (ha ▸ hab)]
    rw [advance_between hfree, standing, hreach, List.length_append, ← List.drop_drop]
    simp only [← ha, List.drop_left]
  simp only [moveTo, hsize, hline]
  split
  · have hstart : (⟨(behind start).line, 0⟩ : Position) = behind start := by rw [← hcolumn]
    rw [hstart]
    exact hstand start line hsplit.symm hle hnone
  next hstay =>
    rw [Bool.or_eq_true, not_or, bne_iff_ne, not_not, decide_eq_true_eq, Nat.not_lt] at hstay
    obtain ⟨hsame, hfront⟩ : (behind start).line = (behind front).line ∧
        width front ≤ min n (width text) := hstay
    refine hstand front rest htext hfront ?_
    have hreach : front ++ reach (min n (width text) - width front) rest =
        start ++ reach (min n (width text) - width start) line := by
      rw [← reach_append hfront, ← reach_append hle, htext, hsplit]
    have hlines := congrArg (fun cs => (behind cs).line) hreach
    simp only [line_behind_append, List.count_eq_zero.mpr hnone] at hlines
    apply List.count_eq_zero.mp
    omega

lemma moveTo_standing (text : List Char) (m n : Nat) :
    (standing text m).moveTo (.ofText text) n = standing text n := by
  have h := moveTo_between (reach m text) (text.drop (reach m text).length) n
  rwa [reach_append_drop] at h

lemma ofIndex_ofText (text : List Char) : ofIndex (.ofText text) = standing text 0 := by
  simp [standing, reach_zero, between, ofIndex, LineIndex.ofText, behind]

lemma range?_standing (o : Overflow) (text : List Char) (m start length : Nat) :
    (standing text m).range? o (.ofText text) start length = (o.add? start length).map fun stop =>
      (⟨(standing text start).position, (standing text stop).position⟩, standing text stop) := by
  simp only [range?, moveTo_standing]

end Cursor

namespace LineIndex

lemma range?_ofText (o : Overflow) (text : List Char) (start length : Nat) :
    (ofText text).range? o start length = (o.add? start length).map fun stop =>
      ⟨(Cursor.standing text start).position, (Cursor.standing text stop).position⟩ := by
  rw [range?, Cursor.ofIndex_ofText, Cursor.range?_standing, Option.map_map]
  rfl

end LineIndex

/-- The range of an assignment whose end is a word. -/
def Assignment.range (text : List Char) (a : Assignment) : Range :=
  ⟨(Cursor.standing text a.start).position, (Cursor.standing text a.stop).position⟩

lemma Assignment.range?_eq {a : Assignment} (h : a.stop < Word.count) (o : Overflow)
    (text : List Char) :
    (LineIndex.ofText text).range? o a.start a.length = some (a.range text) := by
  rw [LineIndex.range?_ofText, Overflow.add?_of_lt h, Option.map_some]
  rfl

lemma Assignment.mapM_range? {as : List Assignment} (h : ∀ a ∈ as, a.stop < Word.count)
    (o : Overflow) (text : List Char) :
    (as.mapM fun a => (LineIndex.ofText text).range? o a.start a.length) =
      some (as.map (Assignment.range text)) := by
  induction as with
  | nil => rfl
  | cons a as ih =>
    obtain ⟨ha, h⟩ := List.forall_mem_cons.mp h
    simp [List.mapM_cons, range?_eq ha, ih h]

namespace Range

variable {as : List Assignment}

/-- The ranges that one cursor finds are those that a new cursor finds for each assignment. -/
lemma ofAssignments?_standing (o : Overflow) (text : List Char) (slots m : Nat)
    (h : ∀ a ∈ as, a.stop < Word.count) :
    ofAssignments? o (.ofText text) slots (Cursor.standing text m) as =
      some ((as.filter (·.bucket < slots)).map fun a => (a.bucket, a.range text)) := by
  induction as generalizing m with
  | nil => rfl
  | cons a as ih =>
    obtain ⟨ha, h⟩ := List.forall_mem_cons.mp h
    rw [ofAssignments?, List.filter_cons]
    by_cases hslot : a.bucket < slots
    · simp [hslot, Cursor.range?_standing, Overflow.add?_of_lt ha, ih _ h, Assignment.range,
        Assignment.stop]
    · simp [hslot, ih _ h]

/-- The list of a bucket holds the ranges of its assignments in their order. -/
lemma byBucket?_ofText (o : Overflow) (h : ∀ a ∈ as, a.stop < Word.count) (text : List Char)
    (slots : Nat) :
    byBucket? o as (.ofText text) slots = some ((List.range slots).map fun bucket =>
      (as.filter (·.bucket == bucket)).map (Assignment.range text)) := by
  rw [byBucket?, Cursor.ofIndex_ofText, ofAssignments?_standing o text slots 0 h, Option.map_some]
  congr 1
  apply List.map_congr_left
  intro bucket hmem
  have hbucket := List.mem_range.mp hmem
  rw [List.filterMap_map, List.filterMap_filter, ← List.filterMap_eq_map, List.filterMap_filter]
  apply List.filterMap_congr
  intro a _
  by_cases ha : a.bucket = bucket <;> simp [ha, hbucket]

end Range
end BlockHue
