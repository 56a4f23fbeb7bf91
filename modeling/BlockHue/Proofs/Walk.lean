import BlockHue.Proofs.Position

/-! The way back from positions. A position is found in a text by passing as many newlines as its
line says, and then as many characters as its column says. Main statement: the way to the position
of an offset ends at the first character boundary at or behind the offset; so positions tell
boundaries apart, go up with them, and mark out stretches of the text. -/
namespace BlockHue
namespace Text

/-- Splits a text behind its first newlines; `none` if it has fewer. -/
def passNewlines? : Nat → List Char → Option (List Char × List Char)
  | 0, cs => some ([], cs)
  | _ + 1, [] => none
  | n + 1, c :: cs => (passNewlines? (if c = '\n' then n else n + 1) cs).map fun (front, back) =>
    (c :: front, back)

/-- Splits a text behind its first characters; `none` if the line or the text ends before. -/
def passColumns? : Nat → List Char → Option (List Char × List Char)
  | 0, cs => some ([], cs)
  | _ + 1, [] => none
  | n + 1, c :: cs => if c = '\n' then none else (passColumns? n cs).map fun (front, back) =>
    (c :: front, back)

lemma passNewlines?_append (lines back : List Char) :
    passNewlines? (lines.count '\n' + 1) (lines ++ '\n' :: back) =
      some (lines ++ ['\n'], back) := by
  induction lines with
  | nil => simp [passNewlines?]
  | cons c lines ih => by_cases hc : c = '\n' <;> simp [passNewlines?, hc, ih]

lemma passColumns?_append {line : List Char} (h : '\n' ∉ line) (back : List Char) :
    passColumns? line.length (line ++ back) = some (line, back) := by
  induction line with
  | nil => rfl
  | cons c line ih =>
    rw [List.mem_cons, not_or] at h
    simp [passColumns?, Ne.symm h.1, ih h.2]

lemma width_le_of_prefix {a b : List Char} (h : a <+: b) : width a ≤ width b := by
  obtain ⟨c, rfl⟩ := h
  simp

/-- A later offset reaches at least as far. -/
lemma reach_mono {m n : Nat} (h : m ≤ n) (cs : List Char) : reach m cs <+: reach n cs := by
  induction cs generalizing m n with
  | nil => exact List.prefix_refl _
  | cons c cs ih =>
    rw [reach, reach]
    by_cases hm : m = 0
    · simp [hm]
    · have hn : n ≠ 0 := by omega
      rw [if_neg hm, if_neg hn]
      exact List.cons_prefix_cons.mpr ⟨rfl, ih (by omega)⟩

lemma le_width_reach {n : Nat} {cs : List Char} (h : n ≤ width cs) : n ≤ width (reach n cs) := by
  induction cs generalizing n with
  | nil => exact h
  | cons c cs ih =>
    rw [width_cons] at h
    rw [reach]
    split
    next hzero => omega
    next =>
      have htail : n - c.utf8Size ≤ width cs := by omega
      have hle := ih htail
      rw [width_cons]
      omega

/-- What an offset reaches ends at the first boundary at or behind the offset. -/
lemma isLeast_width_reach {n : Nat} {text : List Char} (h : n ≤ width text) :
    IsLeast {b | Boundary text b ∧ n ≤ b} (width (reach n text)) := by
  refine ⟨⟨⟨_, _, (reach_append_drop n text).symm, rfl⟩, le_width_reach h⟩, ?_⟩
  rintro b ⟨⟨front, back, rfl, rfl⟩, hle⟩
  rw [reach_append_of_le hle]
  exact width_le_of_prefix (reach_isPrefix n front)

lemma reach_width (front back : List Char) : reach (width front) (front ++ back) = front := by
  rw [reach_append le_rfl, Nat.sub_self, reach_zero, List.append_nil]

end Text

open Text

namespace Position

/-- The parts of a text in front of a position and behind it; `none` if the text has
no such position. -/
def walk? (p : Position) (text : List Char) : Option (List Char × List Char) :=
  (passNewlines? p.line text).bind fun (lines, rest) =>
    (passColumns? p.column rest).map fun (line, back) => (lines ++ line, back)

/-- Positions are ordered by line, then by column. -/
def key (p : Position) : ℕ ×ₗ ℕ := toLex (p.line, p.column)

/-- The front part of a text is its whole lines and the part of a line behind them. -/
lemma behind_eq (front : List Char) :
    ∃ lines line, front = lines ++ line ∧ (lines = [] ∨ ∃ init, lines = init ++ ['\n']) ∧
      '\n' ∉ line ∧
      behind front = ⟨lines.count '\n', line.length⟩ := by
  induction front using List.reverseRecOn with
  | nil => exact ⟨[], [], rfl, .inl rfl, List.not_mem_nil, rfl⟩
  | append_singleton front c ih =>
    obtain ⟨lines, line, rfl, hlines, hline, hbehind⟩ := ih
    rw [behind_append_singleton, hbehind, next]
    by_cases hc : c = '\n'
    · subst hc
      refine ⟨lines ++ line ++ ['\n'], [], by simp, .inr ⟨_, rfl⟩, List.not_mem_nil, ?_⟩
      simp [List.count_eq_zero.mpr hline]
    · refine ⟨lines, line ++ [c], by simp, hlines, ?_, by simp [hc]⟩
      rw [List.mem_append, List.mem_singleton, not_or]
      exact ⟨hline, Ne.symm hc⟩

/-- The way to the position behind the front part of a text ends there. -/
lemma walk?_behind (front back : List Char) :
    (behind front).walk? (front ++ back) = some (front, back) := by
  obtain ⟨lines, line, rfl, hlines, hline, hbehind⟩ := behind_eq front
  have hpass : passNewlines? (lines.count '\n') (lines ++ (line ++ back)) =
      some (lines, line ++ back) := by
    rcases hlines with rfl | ⟨init, rfl⟩
    · simp [passNewlines?]
    · simpa using passNewlines?_append init (line ++ back)
  rw [hbehind, walk?, List.append_assoc, hpass]
  simp [passColumns?_append hline]

lemma key_lt_next (p : Position) (c : Char) : p.key < (p.next c).key := by
  rw [key, key, Prod.Lex.toLex_lt_toLex, next]
  split
  · exact .inl (Nat.lt_succ_self _)
  · exact .inr ⟨rfl, Nat.lt_succ_self _⟩

lemma key_le_foldl (p : Position) (cs : List Char) : p.key ≤ (cs.foldl next p).key := by
  induction cs generalizing p with
  | nil => exact le_rfl
  | cons c cs ih => exact (key_lt_next p c).le.trans (ih (p.next c))

lemma key_behind_le {a b : List Char} (h : a <+: b) : (behind a).key ≤ (behind b).key := by
  obtain ⟨c, rfl⟩ := h
  rw [behind_append]
  exact key_le_foldl _ c

lemma key_behind_lt {a b : List Char} (h : a <+: b) (hne : a ≠ b) :
    (behind a).key < (behind b).key := by
  obtain ⟨cs, rfl⟩ := h
  rw [behind_append]
  cases cs with
  | nil => simp at hne
  | cons c cs => exact (key_lt_next _ c).trans_le (key_le_foldl _ cs)

end Position

namespace LineIndex

lemma position_ofText (text : List Char) (n : Nat) :
    (ofText text).position n = .behind (reach n text) := by
  rw [position, Cursor.ofIndex_ofText, Cursor.moveTo_standing]
  rfl

/-- The way to the position of an offset ends behind the characters that begin before the offset. -/
lemma walk?_position (text : List Char) (n : Nat) :
    ((ofText text).position n).walk? text =
      some (reach n text, text.drop (reach n text).length) := by
  have h := Position.walk?_behind (reach n text) (text.drop (reach n text).length)
  rwa [reach_append_drop, ← position_ofText] at h

lemma position_width (front back : List Char) :
    (ofText (front ++ back)).position (width front) = .behind front := by
  rw [position_ofText, reach_width]

lemma position_injOn (text : List Char) :
    Set.InjOn (ofText text).position {b | Boundary text b} := by
  rintro m ⟨front, back, htext, rfl⟩ n ⟨front', back', htext', rfl⟩ heq
  have hwalk := Position.walk?_behind front back
  have hwalk' := Position.walk?_behind front' back'
  rw [← position_width front back, ← htext, heq] at hwalk
  rw [← position_width front' back', ← htext', hwalk] at hwalk'
  rw [(Prod.mk.inj (Option.some.inj hwalk')).1]

lemma position_mono (text : List Char) : Monotone fun o => ((ofText text).position o).key := by
  intro m n hle
  simp only [position_ofText]
  exact Position.key_behind_le (reach_mono hle text)

lemma position_strictMonoOn (text : List Char) :
    StrictMonoOn (fun o => ((ofText text).position o).key) {b | Boundary text b} := by
  rintro m ⟨front, back, rfl, rfl⟩ n ⟨front', back', htext', rfl⟩ hlt
  have hreach : reach (width front') (front ++ back) = front' := by rw [htext', reach_width]
  simp only [position_ofText, hreach, reach_width]
  refine Position.key_behind_lt (prefix_of_width_le htext' hlt.le) ?_
  rintro rfl
  exact Nat.lt_irrefl _ hlt

/-- The position of a boundary marks it out. -/
lemma walk?_standing (front back : List Char) :
    (Cursor.standing (front ++ back) (width front)).position.walk? (front ++ back) =
      some (front, back) := by
  simpa only [Cursor.standing, Cursor.between, reach_width] using Position.walk?_behind front back

/-- The way to the position of an offset ends at the first boundary at or behind the offset. So
positions are different and go up at boundaries, never go down, and the ends of a range between
boundaries mark out the stretch between them. -/
theorem positions_lose_nothing (text : List Char) :
    (∀ o ≤ width text, ∃ front back, ((ofText text).position o).walk? text = some (front, back) ∧
      text = front ++ back ∧
        IsLeast {b | Boundary text b ∧ o ≤ b} (width front)) ∧
      Set.InjOn (ofText text).position {b | Boundary text b} ∧
      StrictMonoOn (fun o => ((ofText text).position o).key) {b | Boundary text b} ∧
      (Monotone fun o => ((ofText text).position o).key) ∧
      ∀ overflow start length, start + length < Word.count → Boundary text start →
        Boundary text (start + length) →
        ∃ r front w back, (ofText text).range? overflow start length = some r ∧
          text = front ++ w ++ back ∧
          width front = start ∧ width w = length ∧ r.start.walk? text = some (front, w ++ back) ∧
          r.stop.walk? text = some (front ++ w, back) := by
  refine ⟨fun o ho => ?_, position_injOn text, position_strictMonoOn text, position_mono text, ?_⟩
  · exact ⟨_, _, walk?_position text o, (reach_append_drop o text).symm, isLeast_width_reach ho⟩
  · rintro overflow start length hword ⟨front, back, rfl, rfl⟩ ⟨upTo, rest, htext, hupTo⟩
    obtain ⟨w, rfl⟩ := prefix_of_width_le htext (by omega)
    obtain rfl : length = width w := by
      rw [width_append] at hupTo
      omega
    rw [htext, range?_ofText, Overflow.add?_of_lt hword, Option.map_some]
    refine ⟨_, front, w, rest, rfl, rfl, rfl, rfl, ?_, ?_⟩
    · rw [List.append_assoc]
      exact walk?_standing front (w ++ rest)
    · rw [← width_append]
      exact walk?_standing (front ++ w) rest

/-- An offset inside a character, two boundaries on the two sides of a newline, and a range
that goes over it. -/
theorem positions_lose_nothing_lines :
    1 ≤ width "é\n\nx".toList ∧ 2 + 2 < Word.count ∧ Boundary "é\n\nx".toList 2 ∧
      Boundary "é\n\nx".toList (2 + 2) ∧
      (∃ front back, ((ofText "é\n\nx".toList).position 1).walk? "é\n\nx".toList =
        some (front, back) ∧
        "é\n\nx".toList = front ++ back ∧
          IsLeast {b | Boundary "é\n\nx".toList b ∧ 1 ≤ b} (width front)) ∧
      ((ofText "é\n\nx".toList).position 2).key < ((ofText "é\n\nx".toList).position 4).key ∧
      ∃ r front w back, (ofText "é\n\nx".toList).range? .fails 2 2 = some r ∧
        "é\n\nx".toList = front ++ w ++ back ∧ width front = 2 ∧ width w = 2 ∧
        r.start.walk? "é\n\nx".toList = some (front, w ++ back) ∧
        r.stop.walk? "é\n\nx".toList = some (front ++ w, back) := by
  have hle : 1 ≤ width "é\n\nx".toList := by decide
  have hword : 2 + 2 < Word.count := by decide
  have hstart : Boundary "é\n\nx".toList 2 := ⟨['é'], ['\n', '\n', 'x'], by decide, by decide⟩
  have hstop : Boundary "é\n\nx".toList (2 + 2) := ⟨['é', '\n', '\n'], ['x'], by decide, by decide⟩
  obtain ⟨hwalk, -, hlt, -, hrange⟩ := positions_lose_nothing "é\n\nx".toList
  exact ⟨hle, hword, hstart, hstop, hwalk 1 hle, hlt hstart hstop (by decide),
    hrange .fails 2 2 hword hstart hstop⟩

end LineIndex
end BlockHue
