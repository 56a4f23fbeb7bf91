import BlockHue.Proofs.Position

/-! Many questions to one cursor. The position of an offset counts the newlines before it and the
characters of its line before it. Main statement: a cursor answers every question of a row in this
way, whatever it was asked before. -/
namespace BlockHue
namespace Text

/-- The characters of a text, each with the offset of its first byte. -/
def indexed (offset : Nat) : List Char → List (Nat × Char)
  | [] => []
  | c :: cs => (offset, c) :: indexed (offset + c.utf8Size) cs

/-- The number of newlines that lie before an offset. -/
def newlinesBefore (text : List Char) (q : Nat) : Nat :=
  (indexed 0 text).countP fun e => e.2 == '\n' && e.1 < q

/-- The number of characters of a line that begin before an offset; a newline belongs to the
line that it ends. -/
def charsBefore (text : List Char) (line q : Nat) : Nat :=
  (indexed 0 text).countP fun e => newlinesBefore text e.1 == line && e.1 < q

lemma map_snd_indexed (n : Nat) (cs : List Char) : (indexed n cs).map Prod.snd = cs := by
  induction cs generalizing n with
  | nil => rfl
  | cons c cs ih => simp [indexed, ih]

lemma indexed_append (n : Nat) (a b : List Char) :
    indexed n (a ++ b) = indexed n a ++ indexed (n + width a) b := by
  induction a generalizing n with
  | nil => rfl
  | cons c a ih => simp [indexed, ih, Nat.add_assoc]

lemma lt_of_mem_indexed {n : Nat} {cs : List Char} {e : Nat × Char} (h : e ∈ indexed n cs) :
    e.1 < n + width cs := by
  induction cs generalizing n with
  | nil => contradiction
  | cons c cs ih =>
    have hc := c.utf8Size_pos
    rw [width_cons]
    rcases List.mem_cons.mp h with rfl | h
    · simp only
      omega
    · have hlt := ih h
      omega

/-- The characters that begin before an offset are those that the offset reaches. -/
lemma filter_lt_indexed (q n : Nat) (cs : List Char) :
    (indexed n cs).filter (·.1 < q) = indexed n (reach (q - n) cs) := by
  induction cs generalizing n with
  | nil => rfl
  | cons c cs ih =>
    have htail : reach (q - n - c.utf8Size) cs = reach (q - (n + c.utf8Size)) cs := by
      rw [Nat.sub_sub]
    rw [indexed, List.filter_cons, ih]
    by_cases hlt : n < q
    · have hne : q - n ≠ 0 := by omega
      simp [hlt, reach, hne, htail, indexed]
    · have hzero : q - n = 0 := by omega
      have hzero' : q - (n + c.utf8Size) = 0 := by omega
      simp [hlt, hzero, hzero', reach_zero, indexed]

lemma newlinesBefore_eq (text : List Char) (q : Nat) :
    newlinesBefore text q = (reach q text).count '\n' := by
  have hcount : (indexed 0 (reach q text)).countP (·.2 == '\n') = (reach q text).count '\n' := by
    rw [← map_snd_indexed 0 (reach q text), List.count, List.countP_map, map_snd_indexed]
    rfl
  rw [newlinesBefore, ← List.countP_filter, filter_lt_indexed, Nat.sub_zero, hcount]

end Text

open Text

namespace Position

/-- The position of an offset by counting. An offset beyond the end of the text
counts as its end. -/
def counted (text : List Char) (offset : Nat) : Position :=
  let q := min offset (width text)
  ⟨newlinesBefore text q, charsBefore text (newlinesBefore text q) q⟩

/-- The column behind the front part of a text counts the characters that have as many newlines
before them as there are in the front part. -/
lemma column_behind (front back : List Char) :
    (indexed 0 front).countP (fun e => newlinesBefore (front ++ back) e.1 == front.count '\n') =
      (behind front).column := by
  induction front using List.reverseRecOn generalizing back with
  | nil => rfl
  | append_singleton front c ih =>
    have htext : front ++ [c] ++ back = front ++ (c :: back) := by simp
    have hlast : newlinesBefore (front ++ (c :: back)) (width front) = front.count '\n' := by
      rw [newlinesBefore_eq, reach_append le_rfl, Nat.sub_self, reach_zero, List.append_nil]
    rw [htext, indexed_append, List.countP_append, behind_append_singleton, List.count_append,
      List.count_singleton, next]
    by_cases hc : c = '\n'
    · subst hc
      have hzero : (indexed 0 front).countP
          (fun e => newlinesBefore (front ++ '\n' :: back) e.1 == front.count '\n' + 1) = 0 := by
        rw [List.countP_eq_zero]
        intro e he
        have hle : e.1 ≤ width front := by simpa using (lt_of_mem_indexed he).le
        have hcount : newlinesBefore (front ++ '\n' :: back) e.1 ≤ front.count '\n' := by
          rw [newlinesBefore_eq, reach_append_of_le hle]
          exact (reach_isPrefix e.1 front).sublist.count_le '\n'
        rw [beq_iff_eq]
        omega
      simp [hzero, indexed, hlast]
    · simp [hc, indexed, hlast, ih]

lemma behind_reach (text : List Char) (n : Nat) : behind (reach n text) = counted text n := by
  have hline := newlinesBefore_eq text (min n (width text))
  have hcolumn := column_behind (reach n text) (text.drop (reach n text).length)
  rw [reach_min] at hline
  rw [reach_append_drop] at hcolumn
  have hchars : charsBefore text ((reach n text).count '\n') (min n (width text)) =
      (behind (reach n text)).column := by
    rw [charsBefore, ← List.countP_filter, filter_lt_indexed, Nat.sub_zero, reach_min, hcolumn]
  have hnumber : (behind (reach n text)).line = (reach n text).count '\n' := by
    rw [behind, line_foldl, Nat.zero_add]
  rw [counted, hline, hchars, ← hnumber]

end Position

/-- What a cursor can be asked. -/
inductive Query
  | position (offset : Nat)
  | range (start length : Nat)
  deriving DecidableEq, Repr

inductive Answer
  | position (p : Position)
  | range (r : Range)
  deriving DecidableEq, Repr

namespace Query

/-- The answer by counting; a range goes from the position of its start to that of its
end, which is a sum. -/
def counted (o : Overflow) (text : List Char) : Query → Option Answer
  | position offset => some (.position (.counted text offset))
  | range start length =>
    (o.add? start length).map fun stop => .range ⟨.counted text start, .counted text stop⟩

/-- The answer of a new cursor. -/
def fresh (o : Overflow) (ix : LineIndex) : Query → Option Answer
  | position offset => some (.position (ix.position offset))
  | range start length => (ix.range? o start length).map .range

end Query

namespace Cursor

/-- Answers a question, and moves on. -/
def answer (o : Overflow) (cur : Cursor) (ix : LineIndex) : Query → Option (Answer × Cursor)
  | .position offset =>
    let cur := cur.moveTo ix offset
    some (.position cur.position, cur)
  | .range start length => (cur.range? o ix start length).map fun (r, cur) => (.range r, cur)

/-- The answers of one cursor to a row of questions. -/
def answers (o : Overflow) (ix : LineIndex) : Cursor → List Query → Option (List Answer)
  | _, [] => some []
  | cur, q :: qs => do
    let (a, cur) ← cur.answer o ix q
    let as ← answers o ix cur qs
    return a :: as

/-- Wherever a cursor stands, it answers by counting and stands at an offset of the text again. -/
lemma answer_standing (o : Overflow) (text : List Char) (m : Nat) (q : Query) :
    ∃ n, (standing text m).answer o (.ofText text) q =
      (q.counted o text).map (·, standing text n) := by
  have hposition (n : Nat) : (standing text n).position = .counted text n :=
    Position.behind_reach text n
  cases q with
  | position offset =>
    exact ⟨offset, by simp only [answer, moveTo_standing, hposition, Query.counted,
      Option.map_some]⟩
  | range start length =>
    rw [answer, range?_standing, Query.counted]
    cases o.add? start length with
    | none => exact ⟨0, rfl⟩
    | some stop => exact ⟨stop, by simp only [Option.map_some, hposition]⟩

lemma answers_standing (o : Overflow) (text : List Char) (m : Nat) (qs : List Query) :
    answers o (.ofText text) (standing text m) qs = qs.mapM (Query.counted o text) := by
  induction qs generalizing m with
  | nil => rfl
  | cons q qs ih =>
    obtain ⟨n, hn⟩ := answer_standing o text m q
    rw [answers, hn, List.mapM_cons]
    cases q.counted o text with
    | none => rfl
    | some a => simp [ih]

end Cursor

namespace LineIndex

lemma fresh_ofText (o : Overflow) (text : List Char) (q : Query) :
    q.fresh o (.ofText text) = q.counted o text := by
  have hfresh : q.fresh o (.ofText text) =
      ((Cursor.ofIndex (.ofText text)).answer o (.ofText text) q).map Prod.fst := by
    cases q with
    | position offset => rfl
    | range start length =>
      rw [Query.fresh, range?, Cursor.answer, Option.map_map, Option.map_map]
      rfl
  obtain ⟨n, hn⟩ := Cursor.answer_standing o text 0 q
  rw [hfresh, Cursor.ofIndex_ofText, hn, Option.map_map]
  exact Option.map_id'

example : Cursor.answers .fails (.ofText "é\nx".toList) (.ofIndex (.ofText "é\nx".toList))
      [.position 1, .position 9, .range 0 3] =
    some [.position ⟨0, 1⟩, .position ⟨1, 1⟩, .range ⟨⟨0, 0⟩, ⟨1, 0⟩⟩] := by decide +kernel

end LineIndex
end BlockHue
