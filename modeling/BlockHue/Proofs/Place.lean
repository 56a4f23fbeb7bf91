import Mathlib
import BlockHue.Pattern.Basic
import BlockHue.Text.Width

/-! Places of a text and the characters between them. A place leads to another by the characters
that are taken on the way; the offsets of places are the character boundaries of the text. -/
namespace BlockHue
namespace Text

@[simp] lemma width_nil : width [] = 0 := rfl
@[simp] lemma width_cons (c : Char) (cs : List Char) : width (c :: cs) = c.utf8Size + width cs :=
  rfl

@[simp] lemma width_append (a b : List Char) : width (a ++ b) = width a + width b := by
  induction a with
  | nil => simp
  | cons c a ih => simp [ih, Nat.add_assoc]

lemma width_pos {cs : List Char} (h : cs ≠ []) : 0 < width cs := by
  cases cs with
  | nil => contradiction
  | cons c cs =>
    have hc := c.utf8Size_pos
    simp only [width_cons]
    omega

/-- Of two beginnings of a text the one that takes fewer bytes begins the other. -/
lemma prefix_of_width_le {a b x y : List Char} (h : a ++ x = b ++ y) (hw : width a ≤ width b) :
    a <+: b := by
  have ha : a <+: b ++ y := h ▸ List.prefix_append a x
  rcases List.prefix_or_prefix_of_prefix ha (List.prefix_append b y) with hab | ⟨c, hc⟩
  · exact hab
  · rcases c with _ | ⟨c, cs⟩
    · simp [← hc]
    · have hpos := width_pos (List.cons_ne_nil c cs)
      rw [← hc, width_append] at hw
      omega

lemma eq_of_width_eq {a b x y : List Char} (h : a ++ x = b ++ y) (hw : width a = width b) :
    a = b ∧ x = y := by
  obtain ⟨c, hc⟩ := prefix_of_width_le h hw.le
  have hzero : width c = 0 := by
    rw [← hc, width_append] at hw
    omega
  have hnil : c = [] := by
    by_contra hne
    have := width_pos hne
    omega
  have hab : a = b := by simpa [hnil] using hc
  subst hab
  exact ⟨rfl, List.append_cancel_left h⟩

/-- A text can be cut behind each of its beginnings. -/
@[simp] lemma cutAt?_width (a b : List Char) : cutAt? (width a) (a ++ b) = some (a, b) := by
  induction a with
  | nil => simp [cutAt?]
  | cons c a ih =>
    have hc := c.utf8Size_pos
    obtain ⟨n, hn⟩ : ∃ n, c.utf8Size + width a = n + 1 := ⟨c.utf8Size + width a - 1, by omega⟩
    have hle : c.utf8Size ≤ n + 1 := by omega
    have hsub : n + 1 - c.utf8Size = width a := by omega
    rw [width_cons, hn, List.cons_append, cutAt?, if_pos hle, hsub, ih]
    rfl

/-- A character boundary of a text, in bytes from its front. -/
def Boundary (text : List Char) (n : Nat) : Prop :=
  ∃ front back, text = front ++ back ∧ n = width front

lemma Boundary.not_inside {front back : List Char} {c : Char} {n : Nat}
    (h : Boundary (front ++ c :: back) n) (hlow : width front < n) :
    width front + c.utf8Size ≤ n := by
  obtain ⟨a, b, hab, rfl⟩ := h
  obtain ⟨d, rfl⟩ := prefix_of_width_le hab hlow.le
  rw [List.append_assoc] at hab
  cases d with
  | nil => simp at hlow
  | cons x d =>
    obtain ⟨rfl, -⟩ := List.cons.inj (List.append_cancel_left hab)
    simp only [width_append, width_cons]
    omega

lemma Boundary.le_width {text : List Char} {n : Nat} (h : Boundary text n) : n ≤ width text := by
  obtain ⟨front, back, rfl, rfl⟩ := h
  simp

/-- The rest of a text can be cut at each boundary that lies in it. -/
lemma Boundary.cutAt? {front rest : List Char} {n : Nat} (h : Boundary (front ++ rest) n)
    (hle : width front ≤ n) :
    ∃ a b, rest = a ++ b ∧ n = width (front ++ a) ∧ Text.cutAt? (n - width front) rest =
      some (a, b) := by
  obtain ⟨x, y, htext, rfl⟩ := h
  obtain ⟨a, rfl⟩ := prefix_of_width_le htext hle
  rw [List.append_assoc] at htext
  have hrest := List.append_cancel_left htext
  refine ⟨a, y, hrest, rfl, ?_⟩
  rw [hrest, width_append, Nat.add_sub_cancel_left, cutAt?_width]

end Text

namespace Place

/-- The characters `taken` lead from `p` to `q`. -/
structure Leads (p : Place) (taken : List Char) (q : Place) : Prop where
  rest : p.rest = taken ++ q.rest
  offset : q.offset = p.offset + Text.width taken
  before : q.before = taken.getLast?.or p.before

namespace Leads

lemma refl (p : Place) : p.Leads [] p := ⟨rfl, rfl, rfl⟩

lemma trans {p q r : Place} {a b : List Char} (hpq : p.Leads a q) (hqr : q.Leads b r) :
    p.Leads (a ++ b) r where
  rest := by rw [hpq.rest, hqr.rest, List.append_assoc]
  offset := by rw [hqr.offset, hpq.offset, Text.width_append, Nat.add_assoc]
  before := by rw [hqr.before, hpq.before, List.getLast?_append, Option.or_assoc]

lemma next {p : Place} {c : Char} {cs : List Char} (h : p.rest = c :: cs) : p.Leads [c] p.next where
  rest := by simp [Place.next, h]
  offset := by simp [Place.next, h]
  before := by simp [Place.next, h]

lemma eq_of_nil {p q : Place} (h : p.Leads [] q) : q = p := by
  rcases p with ⟨before, rest, offset⟩
  rcases q with ⟨before', rest', offset'⟩
  obtain ⟨hrest, hoffset, hbefore⟩ := h
  simp_all

end Leads

/-- `q` is `p` or lies behind it. -/
def Ahead (p q : Place) : Prop := ∃ taken, p.Leads taken q

namespace Ahead

lemma refl (p : Place) : p.Ahead p := ⟨[], .refl p⟩

lemma trans {p q r : Place} : p.Ahead q → q.Ahead r → p.Ahead r :=
  fun ⟨a, ha⟩ ⟨b, hb⟩ => ⟨a ++ b, ha.trans hb⟩

lemma next (p : Place) : p.Ahead p.next := by
  cases h : p.rest with
  | nil => simpa [Place.next, h] using refl p
  | cons c cs => exact ⟨[c], .next h⟩

lemma offset_le {p q : Place} : p.Ahead q → p.offset ≤ q.offset := by
  rintro ⟨taken, h⟩
  rw [h.offset]
  exact Nat.le_add_right _ _

/-- The end of the text is the same from everywhere. -/
lemma end_eq {p q : Place} :
    p.Ahead q → q.offset + Text.width q.rest = p.offset + Text.width p.rest := by
  rintro ⟨taken, h⟩
  rw [h.offset, h.rest, Text.width_append, Nat.add_assoc]

/-- Of two places ahead of a third the one with the smaller offset is in front of the other. -/
lemma of_offset_le {p q r : Place} (hq : p.Ahead q) (hr : p.Ahead r) (hle : q.offset ≤ r.offset) :
    q.Ahead r := by
  obtain ⟨a, ha⟩ := hq
  obtain ⟨b, hb⟩ := hr
  have hcut : a ++ q.rest = b ++ r.rest := ha.rest.symm.trans hb.rest
  have hwidth : Text.width a ≤ Text.width b := by
    rw [ha.offset, hb.offset] at hle
    omega
  obtain ⟨c, rfl⟩ := Text.prefix_of_width_le hcut hwidth
  rw [List.append_assoc] at hcut
  refine ⟨c, List.append_cancel_left hcut, ?_, ?_⟩
  · rw [hb.offset, ha.offset, Text.width_append, Nat.add_assoc]
  · rw [hb.before, ha.before, List.getLast?_append, Option.or_assoc]

lemma eq_of_offset_eq {p q r : Place} (hq : p.Ahead q) (hr : p.Ahead r) (h : q.offset = r.offset) :
    r = q := by
  obtain ⟨c, hc⟩ := hq.of_offset_le hr h.le
  have hnil : c = [] := by
    by_contra hne
    have hpos := Text.width_pos hne
    have hoffset := hc.offset
    omega
  subst hnil
  exact hc.eq_of_nil

/-- A place ahead is the same one or ahead of the next one. -/
lemma eq_or_next {p q : Place} (h : p.Ahead q) : q = p ∨ p.atEnd = false ∧ p.next.Ahead q := by
  obtain ⟨taken, h⟩ := h
  cases taken with
  | nil => exact .inl h.eq_of_nil
  | cons c cs =>
    right
    have hrest : p.rest = c :: (cs ++ q.rest) := h.rest
    have hahead : p.Ahead q := ⟨_, h⟩
    have hle : p.next.offset ≤ q.offset := by
      have hnext : p.next.offset = p.offset + c.utf8Size := by simp [Place.next, hrest]
      rw [hnext, h.offset, Text.width_cons]
      omega
    exact ⟨by simp [atEnd, hrest], (next p).of_offset_le hahead hle⟩

lemma length_lt {p q : Place} (h : p.Ahead q) (hlt : p.offset < q.offset) :
    q.rest.length < p.rest.length := by
  obtain ⟨taken, h⟩ := h
  have hne : taken ≠ [] := by
    rintro rfl
    rw [h.eq_of_nil] at hlt
    omega
  have hpos := List.length_pos_iff.mpr hne
  rw [h.rest, List.length_append]
  omega

end Ahead

lemma length_next_lt {p : Place} (h : p.atEnd = false) : p.next.rest.length < p.rest.length := by
  obtain ⟨c, cs, hrest⟩ := List.exists_cons_of_ne_nil (by simpa [atEnd] using h)
  simp [next, hrest]

end Place
end BlockHue
