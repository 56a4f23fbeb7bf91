import BlockHue.Proofs.Pattern.Read.Parts

/-! Bracketed classes in front of a closing parenthesis. A class ends with its bracket, so
nothing behind it is taken, and what follows can not complete the name of a class, since no name
holds a parenthesis. -/
namespace BlockHue.Pattern.Read

variable {f : Flags} {cs tail : List Char}

lemma classSign_append (h : cs ≠ []) (tail : List Char) :
    classSign (cs ++ tail) = ((classSign cs).1, (classSign cs).2 ++ tail) := by
  obtain ⟨c, cs, rfl⟩ := List.exists_cons_of_ne_nil h
  by_cases hc : c = '^' <;> simp [classSign, hc]

lemma classOpen_append {st st' : ClassState} {rest : List Char}
    (h : classOpen f st cs = some (st', rest)) (tail : List Char) :
    classOpen f st (cs ++ tail) = some (st', rest ++ tail) := by
  have hne : skip f cs ≠ [] := by
    intro hnil
    simp [classOpen, hnil, classSign, gather] at h
  unfold classOpen at h ⊢
  rw [skip_append hne, classSign_append hne]
  dsimp only at h ⊢
  have hne : (gather f.verbose (· == '-') false (classSign (skip f cs)).2).2 ≠ [] := by
    intro hnil
    simp [hnil] at h
  rw [gather_append _ _ _ _ _ hne]
  generalize gather f.verbose (· == '-') false (classSign (skip f cs)).2 = g at h hne ⊢
  obtain ⟨dashes, back⟩ := g
  obtain ⟨c, back, rfl⟩ := List.exists_cons_of_ne_nil hne
  rcases dashes with _ | ⟨d, dashes⟩
  · by_cases hc : c = ']'
    · subst hc
      obtain ⟨rfl, rfl⟩ := Prod.mk.inj (Option.some.inj h)
      rfl
    · obtain ⟨rfl, rfl⟩ : _ = st' ∧ c :: back = rest := by simpa [hc] using h
      simp [hc]
  · obtain ⟨rfl, rfl⟩ : _ = st' ∧ c :: back = rest := by simpa using h
    simp

/-- No name of a class holds a closing parenthesis. -/
lemma named?_eq_none {name : List Char} (h : ')' ∈ name) :
    CharSet.named? (String.ofList name) = none := by
  unfold CharSet.named?
  split
  case h_15 => rfl
  all_goals
    next heq =>
      have := congrArg String.toList heq
      rw [String.toList_ofList] at this
      subst this
      revert h
      decide

lemma namedClass?_append {s : CharSet} {rest : List Char} (h : namedClass? f cs = some (s, rest))
    (tail : List Char) :
    namedClass? f (cs ++ tail) = some (s, rest ++ tail) := by
  unfold namedClass? at h
  split at h
  next inner =>
    have hne : inner ≠ [] := by
      rintro rfl
      simp [classSign] at h
    dsimp only at h
    split at h
    next name rest' hspan =>
      obtain ⟨t, ht, heq⟩ := Option.map_eq_some_iff.mp h
      obtain ⟨rfl, rfl⟩ := Prod.mk.inj heq
      simp [namedClass?, classSign_append hne, -List.span_eq_takeWhile_dropWhile, span_append hspan,
        ht]
    next => contradiction
  next => contradiction

/-- What stands in front of a closing parenthesis does not begin a named class if it
is none itself. -/
lemma namedClass?_close (h : namedClass? f cs = none) (tail : List Char) :
    namedClass? f (cs ++ ')' :: tail) = none := by
  rcases cs with _ | ⟨c, inner⟩
  · rfl
  by_cases hc : c = ':'
  · subst hc
    unfold namedClass? at h ⊢
    have hsign : ∃ b, classSign (inner ++ ')' :: tail) =
        (b, (classSign inner).2 ++ ')' :: tail) := by
      rcases inner with _ | ⟨c, inner⟩
      · exact ⟨false, rfl⟩
      · exact ⟨_, classSign_append (List.cons_ne_nil c inner) _⟩
    obtain ⟨b, hb⟩ := hsign
    simp only [List.cons_append, hb] at h ⊢
    generalize (classSign inner).2 = x at h ⊢
    rcases hspan : x.span (· != ':') with ⟨name, _ | ⟨c, back⟩⟩
    · have hall : ∀ y ∈ x, (y != ':') = true := by
        rw [List.span_eq_takeWhile_dropWhile, Prod.mk.injEq] at hspan
        exact List.dropWhile_eq_nil_iff.mp hspan.2
      have hname : ')' ∈ x ++ List.takeWhile (· != ':') (')' :: tail) := by simp
      rw [List.span_eq_takeWhile_dropWhile, List.takeWhile_append_of_pos hall]
      split
      next heq =>
        obtain ⟨rfl, -⟩ := Prod.mk.inj heq
        rw [named?_eq_none hname, Option.map_none]
      next => rfl
    · rw [span_append hspan]
      rw [hspan] at h
      rcases back with _ | ⟨d, back⟩
      · simp
      · by_cases hcd : c = ':' ∧ d = ']'
        · obtain ⟨rfl, rfl⟩ := hcd
          simpa using h
        · grind
  · simp [namedClass?, hc]

lemma classAtom_carries [Dialect] {a : Atom} {rest : List Char}
    (h : classAtom f cs = some (a, rest)) :
    Carries (classAtom f) cs (a, ·) rest := by
  rcases cs with _ | ⟨c, cs⟩
  · contradiction
  · by_cases hc : c = '\\'
    · subst hc
      exact escape_carries h
    · obtain ⟨rfl, rfl⟩ : .char c false = a ∧ cs = rest := by simpa [classAtom, hc] using h
      exact .inl fun tail => by simp [classAtom]

lemma head?_append_of_some {c : Char} (h : cs.head? = some c) (tail : List Char) :
    (cs ++ tail).head? = some c := by
  rw [List.head?_append, h]
  rfl

lemma afterHyphen_append {c : Char} (h : afterHyphen f cs = some c) (tail : List Char) :
    afterHyphen f (cs ++ tail) = some c := by
  unfold afterHyphen at h ⊢
  split
  next hv =>
    rw [if_pos hv] at h
    have hne : cs.dropWhile Text.isSpace ≠ [] := by
      intro hnil
      simp [hnil] at h
    obtain ⟨d, r, hr⟩ := List.exists_cons_of_ne_nil hne
    rw [dropWhile_append_of_ne_nil hne, hr]
    rw [hr] at h
    by_cases hd : d = '#'
    · subst hd
      have hne' : r.dropWhile Text.isSpace ≠ [] := by
        intro hnil
        simp [hnil] at h
      simp only [List.cons_append, dropWhile_append_of_ne_nil hne']
      exact head?_append_of_some h tail
    · obtain rfl : d = c := by simpa [hd] using h
      simp [hd]
  next hv =>
    rw [if_neg hv] at h
    exact head?_append_of_some h tail

lemma gather_of_blank (comment : Bool) (h : cs.dropWhile Text.isSpace = []) :
    (gather true (fun _ => false) comment cs).2 = [] := by
  induction cs generalizing comment with
  | nil => simp [gather]
  | cons c cs ih =>
    have hc : Text.isSpace c = true := by
      by_contra hc
      simp [hc] at h
    have hcs : cs.dropWhile Text.isSpace = [] := by simpa [hc] using h
    cases comment <;> simp [gather, hc, ih _ hcs]

lemma skip_of_afterHyphen (h : afterHyphen f cs = none) : skip f cs = [] := by
  unfold afterHyphen at h
  unfold skip
  split
  next hv =>
    rw [if_pos hv] at h
    induction cs with
    | nil => rfl
    | cons c cs ih =>
      by_cases hc : Text.isSpace c = true
      · simpa [gather, hc] using ih (by simpa [hc] using h)
      · by_cases hhash : c = '#'
        · subst hhash
          have hblank : (cs.dropWhile Text.isSpace).head? = none := by simpa [hc] using h
          simpa [gather, hc] using gather_of_blank true (by simpa using hblank)
        · simp [hc, hhash] at h
  next hv =>
    rw [if_neg hv] at h
    simpa using h

lemma classRange_carries [Dialect] {s : CharSet} {rest : List Char}
    (h : classRange f cs = some (s, rest)) :
    Carries (classRange f) cs (s, ·) rest := by
  simp only [classRange, Option.bind_eq_bind, Option.bind_eq_some_iff] at h
  obtain ⟨⟨a, mid⟩, ha, h⟩ := h
  have hmid : skip f mid ≠ [] := by
    intro hnil
    simp [hnil] at h
  have ha' (tail : List Char) : classAtom f (cs ++ ')' :: tail) = some (a, mid ++ ')' :: tail) := by
    rcases classAtom_carries ha with hon | ⟨rfl, -⟩
    · exact hon tail
    · simp at hmid
  obtain ⟨c, r, hr⟩ := List.exists_cons_of_ne_nil hmid
  simp only [hr] at h
  simp only [Carries, classRange, Option.bind_eq_bind, ha', Option.bind_some, skip_append hmid, hr,
    List.cons_append]
  by_cases hc : c = '-'
  · subst hc
    cases hafter : afterHyphen f r with
    | none => simp [hafter, skip_of_afterHyphen hafter, classAtom] at h
    | some d =>
      simp only [hafter, afterHyphen_append hafter] at h ⊢
      split at h
      next hd =>
        obtain ⟨t, ht, heq⟩ := Option.bind_eq_some_iff.mp h
        obtain ⟨rfl, rfl⟩ := Prod.mk.inj (Option.some.inj heq)
        left
        intro tail
        rw [if_pos hd, ht]
        rfl
      next hd =>
        simp only [Option.bind_eq_some_iff] at h
        obtain ⟨⟨b, rest'⟩, hb, first, hfirst, last, hlast, u, hu, h⟩ := h
        obtain ⟨rfl, rfl⟩ := Prod.mk.inj (Option.some.inj h)
        have hr' : skip f r ≠ [] := by
          intro hnil
          simp [hnil, classAtom] at hb
        rcases classAtom_carries hb with hon | ⟨hnil, hon⟩
        · left
          intro tail
          simp only [hd, skip_append hr', hon, Option.bind_some, hfirst, hlast, hu]
          simp
        · right
          simp only [hd, skip_append hr', hon, Option.bind_some, hfirst, hlast, hu]
          exact ⟨hnil, rfl⟩
  · obtain ⟨t, ht, rfl, rfl⟩ : ∃ t, atomSet? f a = some t ∧ t = s ∧ c :: r = rest := by
      simpa [hc, Option.bind_eq_some_iff] using h
    simp [hc, ht]

/-- A step of a class stays the same in front of a closing parenthesis if it ends the class or
leaves something to read. -/
lemma classStep_close [Dialect] {st : ClassState} {next : ClassPart ⊕ ClassState} {rest : List Char}
    (h : classStep f st cs = some (next, rest)) (hon : next.isLeft = true ∨ rest ≠ [])
    (tail : List Char) :
    classStep f st (cs ++ ')' :: tail) = some (next, rest ++ ')' :: tail) := by
  unfold classStep at h ⊢
  have hne : skip f cs ≠ [] := by
    intro hnil
    simp [hnil] at h
  rw [skip_append hne]
  split at h
  case h_1 => contradiction
  case h_2 inner hr =>
    simp only [hr, List.cons_append]
    split at h
    next s mid hs =>
      obtain ⟨rfl, rfl⟩ := Prod.mk.inj (Option.some.inj h)
      rw [namedClass?_append hs]
    next hs =>
      obtain ⟨⟨st', mid⟩, hopen, heq⟩ := Option.map_eq_some_iff.mp h
      obtain ⟨rfl, rfl⟩ := Prod.mk.inj heq
      simp only [namedClass?_close hs, classOpen_append hopen, Option.map_some]
  case h_3 inner hr =>
    obtain ⟨_, hclose, heq⟩ := Option.map_eq_some_iff.mp h
    obtain ⟨rfl, rfl⟩ := Prod.mk.inj heq
    simp only [hr, List.cons_append, hclose, Option.map_some]
  case h_7 hnil hopen hclose hand hminus htilde =>
    obtain ⟨⟨s, mid⟩, hs, heq⟩ := Option.map_eq_some_iff.mp h
    obtain ⟨rfl, rfl⟩ := Prod.mk.inj heq
    have hmid : mid ≠ [] := hon.resolve_left Bool.false_ne_true
    have hs' := (classRange_carries hs).resolve_right (fun hnil => hmid hnil.1) tail
    obtain ⟨c, r, hr⟩ := List.exists_cons_of_ne_nil hne
    rw [hr] at hnil hopen hclose hand hminus htilde hs' ⊢
    rw [List.cons_append] at hs' ⊢
    split
    next => contradiction
    next heq => exact absurd (by rw [(List.cons.inj heq).1]) (hopen r)
    next heq => exact absurd (by rw [(List.cons.inj heq).1]) (hclose r)
    next heq => exact absurd (two_of_close (by decide) heq).choose_spec (hand _)
    next heq => exact absurd (two_of_close (by decide) heq).choose_spec (hminus _)
    next heq => exact absurd (two_of_close (by decide) heq).choose_spec (htilde _)
    next => rw [hs', Option.map_some]
  all_goals
    next hr =>
    obtain ⟨rfl, rfl⟩ := Prod.mk.inj (Option.some.inj h)
    simp only [hr, List.cons_append]

lemma classRest_nil [Dialect] (fuel : Nat) (st : ClassState) : classRest f fuel st [] = none := by
  cases fuel <;> simp [classRest, classStep]

lemma classRest_close [Dialect] {fuel : Nat} {st : ClassState} {part : ClassPart} {rest : List Char}
    (h : classRest f fuel st cs = some (part, rest)) {more : Nat} (hle : fuel ≤ more)
    (tail : List Char) :
    classRest f more st (cs ++ ')' :: tail) = some (part, rest ++ ')' :: tail) := by
  induction fuel generalizing more st cs with
  | zero => contradiction
  | succ fuel ih =>
    obtain ⟨more, rfl⟩ : ∃ m, more = m + 1 := ⟨more - 1, by omega⟩
    obtain ⟨⟨next, mid⟩, hstep, h⟩ := Option.bind_eq_some_iff.mp h
    rw [classRest]
    cases next with
    | inl p =>
      obtain ⟨rfl, rfl⟩ := Prod.mk.inj (Option.some.inj h)
      rw [classStep_close hstep (.inl rfl), Option.bind_some]
    | inr st' =>
      have h : classRest f fuel st' mid = some (part, rest) := h
      have hmid : mid ≠ [] := by
        rintro rfl
        rw [classRest_nil] at h
        contradiction
      rw [classStep_close hstep (.inr hmid), Option.bind_some]
      exact ih h (by omega)

lemma bracketed_close [Dialect] {part : ClassPart} {rest : List Char}
    (h : bracketed f cs = some (part, rest)) (tail : List Char) :
    bracketed f (cs ++ ')' :: tail) = some (part, rest ++ ')' :: tail) := by
  simp only [bracketed, Option.bind_eq_bind, Option.bind_eq_some_iff] at h ⊢
  obtain ⟨⟨st, mid⟩, hopen, ⟨p, rest'⟩, hrest, set, hset, h⟩ := h
  obtain ⟨rfl, rfl⟩ := Prod.mk.inj (Option.some.inj h)
  exact ⟨_, classOpen_append hopen _, _, classRest_close hrest (by simp) tail, set, hset, rfl⟩

end BlockHue.Pattern.Read
