import BlockHue.Keyword
import BlockHue.Proofs.Place

/-! Where keywords are found. A keyword starts at a character boundary, at the front of the text or
behind white space, and takes at least one byte. -/
namespace BlockHue.Keyword

/-- Whether a keyword may start behind these characters. -/
def fresh (front : List Char) : Bool := front.getLast?.all Text.isSpace

@[simp] lemma fresh_append_singleton (front : List Char) (c : Char) :
    fresh (front ++ [c]) = Text.isSpace c := by
  simp [fresh]

/-- The pattern finds a keyword behind `front`, in front of `rest`. -/
structure Found (p : Pattern) (text : List Char) (s : Span) (front rest : List Char) : Prop where
  text : text = front ++ rest
  fresh : fresh front = true
  start : s.start = Text.width front
  stop : ∃ n, lengthAt? p rest = some n ∧ s.stop = s.start + n

lemma lengthAt?_pos {p : Pattern} {rest : List Char} {n : Nat} (h : lengthAt? p rest = some n) :
    0 < n := by
  simp only [lengthAt?, Option.bind_eq_bind, Option.bind_eq_some_iff] at h
  obtain ⟨m, -, span, -, h⟩ := h
  split at h
  · contradiction
  next hne =>
    obtain rfl := Option.some.inj h
    have hne : span.length ≠ 0 := by simpa using hne
    omega

lemma Found.start_lt_stop {p : Pattern} {text front rest : List Char} {s : Span}
    (h : Found p text s front rest) :
    s.start < s.stop := by
  obtain ⟨n, hn, hstop⟩ := h.stop
  have hpos := lengthAt?_pos hn
  omega

/-- Every span that is found in the rest of a text, with `front` behind it, is a
keyword of the text. -/
lemma found_of_mem_spansFrom {p : Pattern} {free : Nat} {front rest : List Char} {s : Span}
    (h : s ∈ spansFrom p (fresh front) free (Text.width front) rest) :
    ∃ front' rest', Found p (front ++ rest) s front' rest' := by
  induction rest generalizing free front with
  | nil => simp [spansFrom] at h
  | cons c cs ih =>
    have hfront : front ++ [c] ++ cs = front ++ c :: cs := by simp
    have hwidth : Text.width front + c.utf8Size = Text.width (front ++ [c]) := by simp
    simp only [spansFrom, hwidth, ← fresh_append_singleton front c] at h
    split at h
    next n hn =>
      split at hn
      next hfree =>
        rcases List.mem_cons.mp h with rfl | h
        · have hfresh : fresh front = true := by
            rw [Bool.and_eq_true] at hfree
            exact hfree.1
          exact ⟨front, c :: cs, rfl, hfresh, rfl, n, hn, rfl⟩
        · exact hfront ▸ ih h
      next => contradiction
    next => exact hfront ▸ ih h

lemma found_of_mem_spans {p : Pattern} {text : List Char} {s : Span} (h : s ∈ spans p text) :
    ∃ front rest, Found p text s front rest := by
  have hstart : s ∈ spansFrom p (fresh []) 0 (Text.width []) text := h
  exact found_of_mem_spansFrom hstart

end BlockHue.Keyword
