import Mathlib
import BlockHue.Pattern.Read

/-! Parts of a written pattern in front of a closing parenthesis. What can be read of a text stays
the same when a parenthesis and more follow the text. The one exception is a comment without an end,
which takes the parenthesis in. -/
namespace BlockHue.Pattern.Read

variable {β : Type} {f : Flags} {cs tail : List Char}

/-- What is read of `cs` stays the same in front of a closing parenthesis, unless a comment without
an end takes it in. `put` makes the result from the rest that is left. -/
def Carries (read : List Char → Option β) (cs : List Char) (put : List Char → β)
    (rest : List Char) : Prop :=
  (∀ tail, read (cs ++ ')' :: tail) = some (put (rest ++ ')' :: tail))) ∨
    rest = [] ∧ read (cs ++ [')']) = some (put [])

lemma gather_append (verbose : Bool) (ok : Char → Bool) (comment : Bool) (cs tail : List Char)
    (h : (gather verbose ok comment cs).2 ≠ []) :
    gather verbose ok comment (cs ++ tail) =
      ((gather verbose ok comment cs).1, (gather verbose ok comment cs).2 ++ tail) := by
  fun_induction gather verbose ok comment cs with
  | case1 => simp at h
  | case2 c cs ih => simpa [gather] using ih h
  | case3 c cs hspace ih => simpa [gather, hspace] using ih h
  | case4 c cs hspace hhash ih => simpa [gather, hspace, hhash] using ih h
  | case5 c cs hspace hhash hok front back heq ih =>
    rw [heq] at ih
    simp [gather, hspace, hhash, hok, ih h]
  | case6 c cs hspace hhash hok => simp [gather, hspace, hhash, hok]

/-- Blanks and comments in front of a closing parenthesis end there, or a comment takes
the parenthesis in. -/
lemma gather_close (verbose : Bool) (ok : Char → Bool) (hok : ok ')' = false) (comment : Bool)
    (cs : List Char) :
    (∀ tail, gather verbose ok comment (cs ++ ')' :: tail) =
        ((gather verbose ok comment cs).1, (gather verbose ok comment cs).2 ++ ')' :: tail)) ∨
      (gather verbose ok comment cs).2 = [] ∧
        gather verbose ok comment (cs ++ [')']) = gather verbose ok comment cs := by
  fun_induction gather verbose ok comment cs with
  | case1 comment =>
    cases comment with
    | false => exact .inl fun tail => by simp [gather, hok, Text.isSpace]
    | true => exact .inr (by simp [gather])
  | case2 c cs ih => simpa [gather] using ih
  | case3 c cs hspace ih => simpa [gather, hspace] using ih
  | case4 c cs hspace hhash ih => simpa [gather, hspace, hhash] using ih
  | case5 c cs hspace hhash hc front back heq ih =>
    rw [heq] at ih
    rcases ih with ih | ⟨hnil, ih⟩
    · exact .inl fun tail => by simp [gather, hspace, hhash, hc, ih tail]
    · exact .inr ⟨hnil, by simp [gather, hspace, hhash, hc, ih]⟩
  | case6 c cs hspace hhash hc => exact .inl (by simp [gather, hspace, hhash, hc])

@[simp] lemma skip_nil (f : Flags) : skip f [] = [] := by
  unfold skip
  split <;> rfl

lemma skip_append (h : skip f cs ≠ []) (tail : List Char) :
    skip f (cs ++ tail) = skip f cs ++ tail := by
  unfold skip at h ⊢
  split
  next hv =>
    rw [if_pos hv] at h
    rw [gather_append _ _ _ _ _ h]
  next => rfl

lemma skip_close (f : Flags) (cs : List Char) :
    (∀ tail, skip f (cs ++ ')' :: tail) = skip f cs ++ ')' :: tail) ∨
      skip f cs = [] ∧ skip f (cs ++ [')']) = [] := by
  unfold skip
  split
  · rcases gather_close true (fun _ => false) rfl false cs with h | ⟨hnil, h⟩
    · exact .inl fun tail => by rw [h]
    · exact .inr ⟨hnil, by rw [h, hnil]⟩
  · exact .inl fun _ => rfl

lemma span_append {p : Char → Bool} {front : List Char} {c : Char} {back : List Char}
    (h : cs.span p = (front, c :: back)) (tail : List Char) :
    (cs ++ tail).span p = (front, c :: back ++ tail) := by
  rw [List.span_eq_takeWhile_dropWhile, Prod.mk.injEq] at h ⊢
  obtain ⟨hfront, hback⟩ := h
  have hall : cs = front ++ c :: back := by rw [← hfront, ← hback, List.takeWhile_append_dropWhile]
  have hc : p c = false := by
    have := List.head?_dropWhile_not p cs
    rw [hback] at this
    simpa using this
  have hpre : ∀ x ∈ front, p x = true := by
    rw [← hfront]
    exact fun x hx => List.mem_takeWhile_imp hx
  rw [hall, List.append_assoc, List.takeWhile_append_of_pos hpre, List.dropWhile_append_of_pos hpre]
  simp [hc]

lemma dropWhile_append_of_ne_nil {p : Char → Bool} (h : cs.dropWhile p ≠ []) (tail : List Char) :
    (cs ++ tail).dropWhile p = cs.dropWhile p ++ tail := by
  simp [List.dropWhile_append, h]

lemma greedyMark_close (cs tail : List Char) :
    greedyMark (cs ++ ')' :: tail) = ((greedyMark cs).1, (greedyMark cs).2 ++ ')' :: tail) := by
  unfold greedyMark
  rcases cs with _ | ⟨c, cs⟩
  · rfl
  · by_cases hc : c = '?' <;> simp [hc]

/-- Two characters other than the parenthesis that come first in front of it come
first without it. -/
lemma two_of_close {c d e : Char} {r inner : List Char} (he : ')' ≠ e)
    (h : c :: (r ++ ')' :: tail) = d :: e :: inner) : ∃ r', c :: r = d :: e :: r' := by
  rcases r with _ | ⟨x, r⟩
  · exact absurd (by simpa using h : c = d ∧ ')' = e ∧ tail = inner).2.1 he
  · obtain ⟨rfl, rfl, -⟩ : c = d ∧ x = e ∧ r ++ ')' :: tail = inner := by simpa using h
    exact ⟨r, rfl⟩

lemma groupName_append {name : String} {rest : List Char} (h : groupName cs = some (name, rest))
    (tail : List Char) :
    groupName (cs ++ tail) = some (name, rest ++ tail) := by
  unfold groupName at h ⊢
  split at h
  next front c back hs =>
    rw [span_append hs]
    split at h
    next hname =>
      obtain ⟨rfl, rfl⟩ := Prod.mk.inj (Option.some.inj h)
      simp [hname]
    next => contradiction
  next => contradiction

lemma groupFlags_append {o : Opening} {rest : List Char} (h : groupFlags f cs = some (o, rest))
    (tail : List Char) :
    groupFlags f (cs ++ tail) = some (o, rest ++ tail) := by
  unfold groupFlags at h ⊢
  split at h
  next letters back hs =>
    rw [span_append hs]
    obtain ⟨g, hg, heq⟩ := Option.map_eq_some_iff.mp h
    obtain ⟨rfl, rfl⟩ := Prod.mk.inj heq
    simp [hg]
  next => contradiction
  next letters c back hcolon hne hs =>
    rw [span_append hs]
    obtain ⟨g, hg, heq⟩ := Option.map_eq_some_iff.mp h
    obtain ⟨rfl, rfl⟩ := Prod.mk.inj heq
    have hc : c ≠ ':' := fun hc => hcolon hc
    simp [hg]
  next => contradiction

lemma opening_carries {o : Opening} {rest : List Char} (h : opening f cs = some (o, rest)) :
    Carries (opening f) cs (o, ·) rest := by
  unfold opening at h
  unfold Carries opening
  rcases skip_close f cs with hs | ⟨hnil, hs⟩
  · left
    intro tail
    rw [hs]
    split at h
    next inner hr =>
      obtain ⟨⟨name, rest'⟩, hname, heq⟩ := Option.map_eq_some_iff.mp h
      obtain ⟨rfl, rfl⟩ := Prod.mk.inj heq
      simp [hr, groupName_append hname]
    next inner hr =>
      obtain ⟨⟨name, rest'⟩, hname, heq⟩ := Option.map_eq_some_iff.mp h
      obtain ⟨rfl, rfl⟩ := Prod.mk.inj heq
      simp [hr, groupName_append hname]
    next inner hP hlt hr =>
      have hne : inner ≠ [] := by
        rintro rfl
        simp [groupFlags] at h
      obtain ⟨c, inner, rfl⟩ := List.exists_cons_of_ne_nil hne
      have hc : c ≠ '<' := fun hc => hlt inner (by rw [hc])
      rw [hr, ← groupFlags_append h]
      rcases inner with _ | ⟨d, inner⟩
      · by_cases hcP : c = 'P' <;> simp [hc, hcP]
      · by_cases hcP : c = 'P'
        · have hd : d ≠ '<' := fun hd => hP inner (by rw [hcP, hd])
          simp [hcP, hd]
        · simp [hc, hcP]
    next hP hlt hq =>
      obtain ⟨rfl, rfl⟩ := Prod.mk.inj (Option.some.inj h)
      cases hr : skip f cs with
      | nil => simp
      | cons c inner =>
        have hc : c ≠ '?' := fun hc => hq inner (by rw [hr, hc])
        simp [hc]
  · rw [hnil] at h
    obtain ⟨rfl, rfl⟩ := Prod.mk.inj (Option.some.inj h)
    exact .inr ⟨rfl, by rw [hs]⟩

lemma decimal_append (h : (decimal f cs).2 ≠ []) (tail : List Char) :
    decimal f (cs ++ tail) = ((decimal f cs).1, (decimal f cs).2 ++ tail) := by
  unfold decimal at h ⊢
  dsimp only at h ⊢
  have hrest : (gather f.verbose Text.isAsciiDigit false (cs.dropWhile Text.isSpace)).2 ≠ [] := by
    intro hnil
    simp [hnil] at h
  have hcs : cs.dropWhile Text.isSpace ≠ [] := by
    intro hnil
    simp [hnil, gather] at hrest
  rw [dropWhile_append_of_ne_nil hcs, gather_append _ _ _ _ _ hrest, dropWhile_append_of_ne_nil h]

lemma countEnd_carries {n m : Count} {greedy : Bool} {rest : List Char}
    (h : countEnd f n cs = some (m, greedy, rest)) :
    Carries (countEnd f n) cs (m, greedy, ·) rest := by
  unfold countEnd at h
  split at h
  next inner =>
    split at h
    next hle =>
      simp only [Option.some.injEq, Prod.mk.injEq] at h
      obtain ⟨rfl, rfl, rfl⟩ := h
      rcases skip_close f inner with hs | ⟨hnil, hs⟩
      · left
        intro tail
        simp [countEnd, hle, hs, greedyMark_close]
      · right
        simp [countEnd, hle, hs, hnil, greedyMark]
    next => contradiction
  next => contradiction

lemma countLeast_carries {least : Nat} {m : Count} {greedy : Bool} {rest : List Char}
    (h : countLeast f least cs = some (m, greedy, rest)) :
    Carries (countLeast f least) cs (m, greedy, ·) rest := by
  unfold countLeast at h
  split at h
  next inner =>
    have hne : skip f inner ≠ [] := by
      intro hnil
      simp [hnil, decimal, gather] at h
    split at h
    next inner' hr =>
      have := countEnd_carries h
      unfold Carries countLeast
      simp only [List.cons_append, skip_append hne, hr]
      simpa [Carries] using this
    next hbrace =>
      split at h
      next most rest' hd =>
        have hrest' : rest' ≠ [] := by
          rintro rfl
          simp [countEnd] at h
        have hdec (tail : List Char) : decimal f (skip f inner ++ tail) =
            (some most, rest' ++ tail) := by
          rw [decimal_append (by rw [hd]; exact hrest'), hd]
        have hcarries := countEnd_carries h
        have hsplit (tail : List Char) :
            countLeast f least (',' :: inner ++ tail) =
              countEnd f ⟨least, some most⟩ (rest' ++ tail) := by
          obtain ⟨c, r, hr⟩ := List.exists_cons_of_ne_nil hne
          have hc : c ≠ '}' := fun hc => hbrace r (by rw [hr, hc])
          have hdec := hdec tail
          rw [hr, List.cons_append] at hdec
          simp only [countLeast, List.cons_append, skip_append hne, hr]
          simp [hc, hdec]
        simpa only [Carries, hsplit] using hcarries
      next => contradiction
  next hcomma =>
    have hcarries := countEnd_carries h
    rcases cs with _ | ⟨c, cs⟩
    · simp [countEnd] at h
    · have hc : c ≠ ',' := fun hc => hcomma cs (by rw [hc])
      have hsplit (tail : List Char) :
          countLeast f least (c :: cs ++ tail) =
            countEnd f ⟨least, some least⟩ (c :: cs ++ tail) := by
        simp [countLeast, hc]
      simpa only [Carries, hsplit] using hcarries

lemma count_carries {m : Count} {greedy : Bool} {rest : List Char}
    (h : count f cs = some (m, greedy, rest)) :
    Carries (count f) cs (m, greedy, ·) rest := by
  unfold count at h
  split at h
  next least rest' hd =>
    have hrest' : rest' ≠ [] := by
      rintro rfl
      simp [countLeast, countEnd] at h
    have hne : skip f cs ≠ [] := by
      intro hnil
      simp [hnil, decimal, gather] at hd
    have hsplit (tail : List Char) : count f (cs ++ tail) = countLeast f least (rest' ++ tail) := by
      unfold count
      rw [skip_append hne, decimal_append (by rw [hd]; exact hrest'), hd]
    simpa only [Carries, hsplit] using countLeast_carries h
  next => contradiction

lemma hexFixed_carries {n value v : Nat} {rest : List Char}
    (h : hexFixed f n value cs = some (v, rest)) :
    Carries (hexFixed f n value) cs (v, ·) rest := by
  induction n generalizing value cs with
  | zero =>
    obtain ⟨rfl, rfl⟩ := Prod.mk.inj (Option.some.inj h)
    exact .inl fun _ => rfl
  | succ n ih =>
    rcases cs with _ | ⟨c, cs⟩
    · contradiction
    · simp only [hexFixed] at h
      obtain ⟨d, hd, h⟩ := Option.bind_eq_some_iff.mp h
      rcases skip_close f cs with hs | ⟨hnil, hs⟩
      · simpa only [Carries, List.cons_append, hexFixed, hd, Option.bind_some, hs] using ih h
      · right
        rw [hnil] at h
        have hrest : rest = [] := by
          cases n with
          | zero => exact (Prod.mk.inj (Option.some.inj h)).2.symm
          | succ n => contradiction
        subst hrest
        refine ⟨rfl, ?_⟩
        simp only [List.cons_append, hexFixed, hd, Option.bind_some, hs, h]

lemma braced_append {inside rest : List Char} (h : braced f cs = some (inside, rest))
    (tail : List Char) :
    braced f (cs ++ tail) = some (inside, rest ++ tail) := by
  unfold braced at h ⊢
  split at h
  next front c back hg =>
    obtain ⟨rfl, rfl⟩ := Prod.mk.inj (Option.some.inj h)
    rw [gather_append _ _ _ _ _ (by simp [hg]), hg]
    rfl
  next => contradiction

lemma hexChar_carries {n : Nat} {byte : Bool} {a : Atom} {rest : List Char} (hn : n ≠ 0)
    (h : hexChar f n byte cs = some (a, rest)) : Carries (hexChar f n byte) cs (a, ·) rest := by
  have hne : skip f cs ≠ [] := by
    intro hnil
    obtain ⟨k, rfl⟩ := Nat.exists_eq_succ_of_ne_zero hn
    simp [hexChar, hnil, hexFixed] at h
  obtain ⟨c, r, hr⟩ := List.exists_cons_of_ne_nil hne
  by_cases hc : c = '{'
  · have hsplit (tail : List Char) : hexChar f n byte (cs ++ tail) =
        (braced f (r ++ tail)).bind fun x =>
          ((hexValue? x.1).bind char?).map fun c => (.char c false, x.2) := by
      simp [hexChar, skip_append hne, hr, hc, Option.map_eq_bind]
    have h' := hsplit []
    rw [List.append_nil, h, List.append_nil] at h'
    obtain ⟨⟨digits, rest'⟩, hbraced, hvalue⟩ := Option.bind_eq_some_iff.mp h'.symm
    obtain ⟨d, hd, heq⟩ := Option.map_eq_some_iff.mp hvalue
    obtain ⟨rfl, rfl⟩ := Prod.mk.inj heq
    left
    intro tail
    simp only [hsplit, braced_append hbraced, Option.bind_some, hd, Option.map_some]
  · have hsplit (tail : List Char) : hexChar f n byte (cs ++ tail) =
        (hexFixed f n 0 (c :: r ++ tail)).bind fun x =>
          (char? x.1).map fun c => (.char c byte, x.2) := by
      simp [hexChar, skip_append hne, hr, hc, Option.map_eq_bind]
    have h' := hsplit []
    rw [List.append_nil, h, List.append_nil] at h'
    obtain ⟨⟨value, rest'⟩, hfixed, hvalue⟩ := Option.bind_eq_some_iff.mp h'.symm
    obtain ⟨d, hd, heq⟩ := Option.map_eq_some_iff.mp hvalue
    obtain ⟨rfl, rfl⟩ := Prod.mk.inj heq
    rcases hexFixed_carries hfixed with hon | ⟨hnil, hon⟩
    · left
      intro tail
      simp only [hsplit, hon, Option.bind_some, hd, Option.map_some]
    · right
      refine ⟨hnil, ?_⟩
      simp only [hsplit, hon, Option.bind_some, hd, Option.map_some]

lemma propertyAtom_append [Dialect] {negated : Bool} {a : Atom} {rest : List Char}
    (h : propertyAtom f negated cs = some (a, rest)) (tail : List Char) :
    propertyAtom f negated (cs ++ tail) = some (a, rest ++ tail) := by
  have hne : skip f cs ≠ [] := by
    intro hnil
    simp [propertyAtom, hnil] at h
  obtain ⟨c, r, hr⟩ := List.exists_cons_of_ne_nil hne
  unfold propertyAtom at h ⊢
  rw [skip_append hne, hr, List.cons_append]
  rw [hr] at h
  by_cases hc : c = '{'
  · subst hc
    simp only [Option.bind_eq_bind, Option.bind_eq_some_iff] at h ⊢
    obtain ⟨u, hu, ⟨name, rest'⟩, hname, set, hset, h⟩ := h
    obtain ⟨rfl, rfl⟩ := Prod.mk.inj (Option.some.inj h)
    exact ⟨u, hu, _, braced_append hname tail, set, hset, rfl⟩
  · by_cases hb : c = '\\'
    · simp [hb] at h
    · simp only [Option.bind_eq_bind, Option.bind_eq_some_iff] at h ⊢
      obtain ⟨u, hu, name, hname, set, hset, h⟩ := h
      obtain rfl := Option.some.inj hname
      obtain ⟨rfl, rfl⟩ := Prod.mk.inj (Option.some.inj h)
      exact ⟨u, hu, _, rfl, set, hset, rfl⟩

lemma wordEdge_close {a : Atom} {rest : List Char} (h : wordEdge f cs = some (a, rest))
    (tail : List Char) :
    wordEdge f (cs ++ ')' :: tail) = some (a, rest ++ ')' :: tail) := by
  rcases cs with _ | ⟨c, inside⟩
  · obtain ⟨rfl, rfl⟩ := Prod.mk.inj (Option.some.inj h)
    rfl
  · by_cases hc : c = '{'
    · subst hc
      have hne : skip f inside ≠ [] := by
        intro hnil
        simp [wordEdge, hnil] at h
      obtain ⟨d, r, hr⟩ := List.exists_cons_of_ne_nil hne
      simp only [wordEdge, List.cons_append, skip_append hne, hr] at h ⊢
      split at h
      next hd =>
        rw [if_pos hd]
        split at h
        next name rest' hg =>
          obtain ⟨l, hl, heq⟩ := Option.map_eq_some_iff.mp h
          obtain ⟨rfl, rfl⟩ := Prod.mk.inj heq
          rw [gather_append _ _ _ _ _ (by rw [hg]; exact List.cons_ne_nil _ _), hg]
          simp [hl]
        next => contradiction
      next hd =>
        obtain ⟨rfl, rfl⟩ := Prod.mk.inj (Option.some.inj h)
        rw [if_neg hd]
        rfl
    · obtain ⟨rfl, rfl⟩ : wordLook f .edge = a ∧ c :: inside = rest := by
        simpa [wordEdge, hc] using h
      simp [wordEdge, hc]

lemma escape_carries [Dialect] {a : Atom} {rest : List Char} (h : escape f cs = some (a, rest)) :
    Carries (escape f) cs (a, ·) rest := by
  rcases cs with _ | ⟨c, cs⟩
  · contradiction
  simp only [escape] at h
  simp only [Carries, List.cons_append, escape]
  split at h
  next he =>
    obtain ⟨rfl, rfl⟩ := Prod.mk.inj (Option.some.inj h)
    simp [he]
  next he =>
    simp only [he]
    split at h
    case h_1 => exact hexChar_carries (by decide) h
    case h_2 => exact hexChar_carries (by decide) h
    case h_3 => exact hexChar_carries (by decide) h
    case h_4 => exact .inl fun tail => propertyAtom_append h _
    case h_5 => exact .inl fun tail => propertyAtom_append h _
    case h_20 => exact .inl fun tail => wordEdge_close h tail
    case h_24 => contradiction
    all_goals
      obtain ⟨rfl, rfl⟩ := Prod.mk.inj (Option.some.inj h)
      exact .inl fun tail => rfl

end BlockHue.Pattern.Read
