import BlockHue.Comprehension
import BlockHue.Proofs.Pattern.Words

/-! Parts of a text. Where no keyword crosses the seam between two parts, keywords are found in one
part after the other; a character that is in no word makes such a seam. Brackets are single
characters and are found in every part alike. -/
namespace BlockHue

namespace Keyword
open Pattern

variable {caseSensitive : Bool} {words : List (List Char)}

/-- A character that is in none of the words. -/
def Foreign (caseSensitive : Bool) (words : List (List Char)) (c : Char) : Prop :=
  ∀ w ∈ words, Text.canon caseSensitive c ∉ w.map (Text.canon caseSensitive)

instance (c : Char) : Decidable (Foreign caseSensitive words c) :=
  inferInstanceAs (Decidable (∀ w ∈ words, _))

/-- A word that fits ends in front of a character that is not in it. -/
lemma length_le_of_fits {w x y : List Char} {c : Char}
    (hc : Text.canon caseSensitive c ∉ w.map (Text.canon caseSensitive))
    (h : fits caseSensitive (x ++ c :: y) w = true) :
    w.length ≤ x.length := by
  rw [fits, Bool.and_eq_true, decide_eq_true_eq, Text.same_iff] at h
  by_contra hlt
  have hget : (w.map (Text.canon caseSensitive))[x.length]? =
      some (Text.canon caseSensitive c) := by
    rw [← h.1, List.getElem?_map, List.getElem?_take_of_lt (by omega),
      List.getElem?_append_right le_rfl]
    simp
  exact hc (List.mem_of_getElem? hget)

lemma lengthAt?_le_of_foreign {x y : List Char} {c : Char} {n : Nat}
    (hc : Foreign caseSensitive words c)
    (h : lengthAt? (ofWords caseSensitive words) (x ++ c :: y) = some n) : n ≤ Text.width x := by
  rw [lengthAt?_ofWords] at h
  obtain ⟨w, hw, h⟩ := Option.bind_eq_some_iff.mp h
  have hle := length_le_of_fits (hc w (List.mem_of_find?_eq_some hw)) (List.find?_some hw)
  split at h
  · contradiction
  · obtain rfl := Option.some.inj h
    have hwidth : Text.width x = Text.width (x.take w.length) + Text.width (x.drop w.length) := by
      rw [← Text.width_append, List.take_append_drop]
    rw [List.take_append_of_le_length hle]
    omega

/-- What comes behind two characters that are no white space and in none of the words does not
matter. -/
lemma lengthAt?_congr_of_foreign {x y z : List Char} {c d : Char}
    (hc : Foreign caseSensitive words c) (hd : Foreign caseSensitive words d)
    (hcs : Text.isSpace c = false) (hds : Text.isSpace d = false) :
    lengthAt? (ofWords caseSensitive words) (x ++ c :: y) =
      lengthAt? (ofWords caseSensitive words) (x ++ d :: z) := by
  have hclosed (k : Nat) (hk : k ≤ x.length) : closed ((x ++ c :: y).drop k) =
      closed ((x ++ d :: z).drop k) := by
    rw [List.drop_append_of_le_length hk, List.drop_append_of_le_length hk]
    cases x.drop k <;> simp [closed, hcs, hds]
  have hfits (w : List Char) (hw : w ∈ words) : fits caseSensitive (x ++ c :: y) w =
      fits caseSensitive (x ++ d :: z) w := by
    by_cases hle : w.length ≤ x.length
    · rw [fits, fits, hclosed _ hle, List.take_append_of_le_length hle,
        List.take_append_of_le_length hle]
    · have hcfits : ¬ fits caseSensitive (x ++ c :: y) w = true :=
        fun h => hle (length_le_of_fits (hc w hw) h)
      have hdfits : ¬ fits caseSensitive (x ++ d :: z) w = true :=
        fun h => hle (length_le_of_fits (hd w hw) h)
      rw [Bool.eq_false_iff.mpr hcfits, Bool.eq_false_iff.mpr hdfits]
  rw [lengthAt?_ofWords, lengthAt?_ofWords]
  have hfind : words.find? (fits caseSensitive (x ++ c :: y)) =
      words.find? (fits caseSensitive (x ++ d :: z)) := by
    rw [← List.head?_filter, ← List.head?_filter, List.filter_congr hfits]
  rw [hfind]
  apply Option.bind_congr
  intro w hw
  have hle := length_le_of_fits (hd w (List.mem_of_find?_eq_some hw)) (List.find?_some hw)
  rw [List.take_append_of_le_length hle, List.take_append_of_le_length hle]

/-- A keyword of words with two characters or more goes on behind its first character. -/
lemma first_lt_of_lengthAt? {c : Char} {cs : List Char} {n : Nat}
    (hwords : ∀ w ∈ words, 2 ≤ w.length)
    (h : lengthAt? (ofWords caseSensitive words) (c :: cs) = some n) : c.utf8Size < n := by
  obtain ⟨w, hw, taken, back, hsame, hrest, -, rfl⟩ := word_of_lengthAt? h
  have hlength := hsame.length_eq ▸ hwords w hw
  rcases taken with _ | ⟨d, _ | ⟨e, taken⟩⟩
  · simp at hlength
  · simp at hlength
  · obtain ⟨rfl, -⟩ := List.cons.inj hrest
    have he := e.utf8Size_pos
    simp only [Text.width_cons]
    omega

lemma spansFrom_of_free_le {p : Pattern} {fresh : Bool} {free offset : Nat} (h : free ≤ offset)
    (rest : List Char) :
    spansFrom p fresh free offset rest = spansFrom p fresh 0 offset rest := by
  induction rest generalizing fresh free offset with
  | nil => rfl
  | cons c cs ih =>
    have htail : spansFrom p (Text.isSpace c) free (offset + c.utf8Size) cs =
        spansFrom p (Text.isSpace c) 0 (offset + c.utf8Size) cs := ih (by omega)
    simp only [spansFrom, h, Nat.zero_le, htail]

/-- Whether a keyword may start behind some characters, if `fresh` tells it in front of them. -/
def freshBehind (fresh : Bool) (cs : List Char) : Bool := (cs.getLast?.map Text.isSpace).getD fresh

lemma freshBehind_cons (fresh : Bool) (c : Char) (cs : List Char) :
    freshBehind fresh (c :: cs) = freshBehind (Text.isSpace c) cs := by
  rw [freshBehind, freshBehind, List.getLast?_cons]
  cases cs.getLast? <;> rfl

lemma freshBehind_append (fresh : Bool) (a b : List Char) :
    freshBehind fresh (a ++ b) = freshBehind (freshBehind fresh a) b := by
  induction a generalizing fresh with
  | nil => rfl
  | cons c cs ih => rw [List.cons_append, freshBehind_cons, freshBehind_cons, ih]

/-- Behind white space a keyword may start. -/
lemma freshBehind_true {cs : List Char} (h : ∀ c ∈ cs, Text.isSpace c = true) :
    freshBehind true cs = true := by
  cases hlast : cs.getLast? with
  | none => simp [freshBehind, hlast]
  | some c => simp [freshBehind, hlast, h c (List.mem_of_getLast? hlast)]

/-- Inside a word no keyword may start. -/
lemma freshBehind_eq_false {fresh : Bool} {cs : List Char} (hne : cs ≠ [])
    (h : ∀ c ∈ cs, Text.isSpace c = false) :
    freshBehind fresh cs = false := by
  cases hlast : cs.getLast? with
  | none => exact absurd (List.getLast?_eq_none_iff.mp hlast) hne
  | some c => simp [freshBehind, hlast, h c (List.mem_of_getLast? hlast)]

/-- Where no keyword goes beyond the front part of a text and the two parts behind it do not
matter for the keywords in it, the same keywords are found in the front part, and the search
goes on behind it. -/
lemma spansFrom_append {p : Pattern} {fresh : Bool} {front back back' : List Char}
    (hle : ∀ x y, front = x ++ y → freshBehind fresh x = true →
      ∀ n, lengthAt? p (y ++ back) = some n → n ≤ Text.width y)
    (hcongr : ∀ y, y <:+ front → lengthAt? p (y ++ back) = lengthAt? p (y ++ back'))
    {free offset : Nat} (hfree : free ≤ offset + Text.width front) :
    ∃ found, (∀ s ∈ found, offset ≤ s.start ∧ s.start < s.stop ∧
      s.stop ≤ offset + Text.width front) ∧
      spansFrom p fresh free offset (front ++ back) =
        found ++ spansFrom p (freshBehind fresh front) 0 (offset + Text.width front) back ∧
      spansFrom p fresh free offset (front ++ back') =
        found ++ spansFrom p (freshBehind fresh front) 0 (offset + Text.width front) back' := by
  induction front generalizing fresh free offset with
  | nil => exact ⟨[], by simp, spansFrom_of_free_le hfree _, spansFrom_of_free_le hfree _⟩
  | cons c cs ih =>
    have hle' (x y : List Char) (hcs : cs = x ++ y)
        (hfresh : freshBehind (Text.isSpace c) x = true) :
        ∀ n, lengthAt? p (y ++ back) = some n → n ≤ Text.width y :=
      hle (c :: x) y (by rw [hcs, List.cons_append]) (by rwa [freshBehind_cons])
    have hcongr' (y : List Char) (hy : y <:+ cs) :
        lengthAt? p (y ++ back) = lengthAt? p (y ++ back') :=
      hcongr y (hy.trans (List.suffix_cons c cs))
    have hhere := hcongr (c :: cs) (List.suffix_refl _)
    have hwidth : offset + Text.width (c :: cs) = offset + c.utf8Size + Text.width cs := by
      simp [Nat.add_assoc]
    rw [hwidth] at hfree ⊢
    simp only [List.cons_append] at hhere
    simp only [List.cons_append, spansFrom, ← hhere, freshBehind_cons]
    split
    next n hn =>
      have hn' : 0 < n ∧ n ≤ Text.width (c :: cs) := by
        split at hn
        next hfresh =>
          rw [Bool.and_eq_true] at hfresh
          exact ⟨lengthAt?_pos hn, hle [] (c :: cs) rfl hfresh.1 n hn⟩
        next => contradiction
      have hfree' : offset + n ≤ offset + c.utf8Size + Text.width cs := by omega
      obtain ⟨found, hfound, hback, hback'⟩ := ih hle' hcongr' hfree'
      refine ⟨⟨offset, offset + n⟩ :: found, ?_, by rw [hback]; rfl, by rw [hback']; rfl⟩
      intro s hs
      rcases List.mem_cons.mp hs with rfl | hs
      · exact ⟨le_rfl, by simp only; omega, by simp only; omega⟩
      · have hs' := hfound s hs
        omega
    next =>
      obtain ⟨found, hfound, hback, hback'⟩ := ih hle' hcongr' hfree
      refine ⟨found, fun s hs => ?_, hback, hback'⟩
      have hs' := hfound s hs
      omega

end Keyword

/-- The stretches of single characters of a set. -/
def CharSet.spansFrom (set : CharSet) : Nat → List Char → List Span
  | _, [] => []
  | offset, c :: cs =>
    if set.contains c then ⟨offset, offset + c.utf8Size⟩ :: set.spansFrom (offset + c.utf8Size) cs
    else set.spansFrom (offset + c.utf8Size) cs

namespace CharSet

lemma spansFrom_append (set : CharSet) (offset : Nat) (front back : List Char) :
    set.spansFrom offset (front ++ back) =
      set.spansFrom offset front ++ set.spansFrom (offset + Text.width front) back := by
  induction front generalizing offset with
  | nil => rfl
  | cons c cs ih =>
    simp only [List.cons_append, spansFrom, ih, Text.width_cons, ← Nat.add_assoc]
    split <;> rfl

/-- Each span starts at a character of the set. -/
lemma mem_spansFrom {set : CharSet} {offset : Nat} {rest : List Char} {s : Span}
    (h : s ∈ set.spansFrom offset rest) :
    ∃ front c back, rest = front ++ c :: back ∧ set.contains c = true ∧
      s.start = offset + Text.width front ∧
      s.stop = s.start + c.utf8Size := by
  induction rest generalizing offset with
  | nil => contradiction
  | cons c cs ih =>
    have hlater (h : s ∈ set.spansFrom (offset + c.utf8Size) cs) :
        ∃ front d back, c :: cs = front ++ d :: back ∧
        set.contains d = true ∧ s.start = offset + Text.width front ∧
          s.stop = s.start + d.utf8Size := by
      obtain ⟨front, d, back, rfl, hd, hstart, hstop⟩ := ih h
      exact ⟨c :: front, d, back, rfl, hd, by simp [hstart, Nat.add_assoc], hstop⟩
    unfold spansFrom at h
    split at h
    next hc =>
      rcases List.mem_cons.mp h with rfl | h
      · exact ⟨[], c, cs, rfl, hc, by simp, rfl⟩
      · exact hlater h
    next => exact hlater h

/-- No two spans start at one offset. -/
lemma eq_of_start_eq {set : CharSet} {offset : Nat} {rest : List Char} {s s' : Span}
    (hs : s ∈ set.spansFrom offset rest) (hs' : s' ∈ set.spansFrom offset rest)
    (h : s.start = s'.start) : s = s' := by
  obtain ⟨front, c, back, hrest, -, hstart, hstop⟩ := mem_spansFrom hs
  obtain ⟨front', c', back', hrest', -, hstart', hstop'⟩ := mem_spansFrom hs'
  obtain ⟨-, hcut⟩ := Text.eq_of_width_eq (hrest.symm.trans hrest') (by omega)
  obtain ⟨rfl, -⟩ := List.cons.inj hcut
  rcases s with ⟨start, stop⟩
  rcases s' with ⟨start', stop'⟩
  simp only at h hstop hstop'
  rw [h, hstop, hstop', h]

end CharSet

namespace Pattern

lemma matchAt?_one (set : CharSet) (place : Place) :
    (one set).matchAt? place =
      match place.rest with
      | [] => none
      | c :: _ => if set.contains c then some ⟨place, place.next, []⟩ else none := by
  rw [matchAt?_eq]
  rcases hrest : place.rest with _ | ⟨c, cs⟩
  · simp [threads, hrest]
  · by_cases hc : set.contains c <;> simp [threads, hrest, hc, Thread.next]

/-- The matches of a set are its characters. -/
lemma span_matchesFrom_one (set : CharSet) (fuel : Nat) (place : Place)
    (h : place.rest.length < fuel) :
    ((one set).matchesFrom fuel place).map Match.span = set.spansFrom place.offset place.rest := by
  rcases place with ⟨before, rest, offset⟩
  induction rest generalizing fuel before offset with
  | nil =>
    rcases fuel with _ | fuel
    · simp at h
    · simp [matchesFrom, search?, anchored, searchFrom?, matchAt?_one, CharSet.spansFrom]
  | cons c cs ih =>
    rcases fuel with _ | fuel
    · simp at h
    · simp only [List.length_cons, Nat.add_lt_add_iff_right] at h
      have hpos := c.utf8Size_pos
      cases hc : set.contains c with
      | true =>
        have hsearch : (one set).search? ⟨before, c :: cs, offset⟩ =
            some ⟨⟨before, c :: cs, offset⟩, ⟨some c, cs, offset + c.utf8Size⟩, []⟩ := by
          simp [search?, anchored, searchFrom?, matchAt?_one, hc, Place.next]
        have hne : (⟨⟨before, c :: cs, offset⟩, ⟨some c, cs, offset + c.utf8Size⟩,
            []⟩ : Match).isEmpty = false := by
          simp [Match.isEmpty]
          omega
        simp only [matchesFrom, hsearch, hne, Bool.not_false, if_true, List.map_cons,
          CharSet.spansFrom, hc]
        rw [ih fuel (some c) _ h]
        rfl
      | false =>
        have hsearch : (one set).search? ⟨before, c :: cs, offset⟩ =
            (one set).search? ⟨some c, cs, offset + c.utf8Size⟩ := by
          simp [search?, anchored, searchFrom?, matchAt?_one, hc]
        have hmatches : (one set).matchesFrom (fuel + 1) ⟨before, c :: cs, offset⟩ =
            (one set).matchesFrom (fuel + 1) ⟨some c, cs, offset + c.utf8Size⟩ := by
          simp only [matchesFrom, hsearch]
        rw [hmatches, ih (fuel + 1) _ _ (by simp only; omega)]
        simp [CharSet.spansFrom, hc]

lemma span_matches_one (set : CharSet) (text : List Char) :
    ((one set).matches text).map Match.span = set.spansFrom 0 text :=
  span_matchesFrom_one set _ _ (Nat.lt_succ_self _)

end Pattern
end BlockHue
