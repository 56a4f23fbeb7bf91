import BlockHue.Proofs.Pattern.Read.Steps

/-! The reader goes onward. What a part of a pattern leaves unread is the back of the text it was
given. Main statement: a text that can be read at all is read in no more steps than it has
characters, so the bound on their number is never what refuses a pattern. -/
namespace BlockHue.Pattern.Read

variable {f : Flags} {cs rest : List Char}

lemma gather_suffix (verbose : Bool) (ok : Char → Bool) (comment : Bool) (cs : List Char) :
    (gather verbose ok comment cs).2 <:+ cs := by
  fun_induction gather verbose ok comment cs with
  | case1 => exact List.suffix_rfl
  | case2 c cs ih => exact ih.trans (List.suffix_cons c cs)
  | case3 c cs _ ih => exact ih.trans (List.suffix_cons c cs)
  | case4 c cs _ _ ih => exact ih.trans (List.suffix_cons c cs)
  | case5 c cs _ _ _ front back heq ih =>
    rw [heq] at ih
    exact ih.trans (List.suffix_cons c cs)
  | case6 => exact List.suffix_rfl

lemma skip_suffix (f : Flags) (cs : List Char) : skip f cs <:+ cs := by
  unfold skip
  split
  · exact gather_suffix _ _ _ _
  · exact List.suffix_rfl

lemma span_suffix {p : Char → Bool} {front back : List Char} (h : cs.span p = (front, back)) :
    back <:+ cs := by
  rw [List.span_eq_takeWhile_dropWhile, Prod.mk.injEq] at h
  rw [← h.2]
  exact List.dropWhile_suffix p

lemma groupName_suffix {name : String} (h : groupName cs = some (name, rest)) : rest <:+ cs := by
  unfold groupName at h
  split at h
  next front c back hs =>
    split at h
    next =>
      obtain ⟨-, rfl⟩ := Prod.mk.inj (Option.some.inj h)
      exact (List.suffix_cons c _).trans (span_suffix hs)
    next => contradiction
  next => contradiction

lemma groupFlags_suffix {o : Opening} (h : groupFlags f cs = some (o, rest)) : rest <:+ cs := by
  unfold groupFlags at h
  split at h
  next letters back hs =>
    obtain ⟨g, -, heq⟩ := Option.map_eq_some_iff.mp h
    obtain ⟨-, rfl⟩ := Prod.mk.inj heq
    exact (List.suffix_cons ':' _).trans (span_suffix hs)
  next => contradiction
  next letters c back _ _ hs =>
    obtain ⟨g, -, heq⟩ := Option.map_eq_some_iff.mp h
    obtain ⟨-, rfl⟩ := Prod.mk.inj heq
    exact (List.suffix_cons c _).trans (span_suffix hs)
  next => contradiction

lemma opening_suffix {o : Opening} (h : opening f cs = some (o, rest)) : rest <:+ cs := by
  have hskip := skip_suffix f cs
  unfold opening at h
  split at h
  next inner hr =>
    obtain ⟨⟨name, rest'⟩, hname, heq⟩ := Option.map_eq_some_iff.mp h
    obtain ⟨-, rfl⟩ := Prod.mk.inj heq
    rw [hr] at hskip
    exact (groupName_suffix hname).trans ((List.suffix_append ['?', 'P', '<'] inner).trans hskip)
  next inner hr =>
    obtain ⟨⟨name, rest'⟩, hname, heq⟩ := Option.map_eq_some_iff.mp h
    obtain ⟨-, rfl⟩ := Prod.mk.inj heq
    rw [hr] at hskip
    exact (groupName_suffix hname).trans ((List.suffix_append ['?', '<'] inner).trans hskip)
  next inner _ _ hr =>
    rw [hr] at hskip
    exact (groupFlags_suffix h).trans ((List.suffix_cons '?' inner).trans hskip)
  next =>
    obtain ⟨-, rfl⟩ := Prod.mk.inj (Option.some.inj h)
    exact hskip

lemma greedyMark_suffix (cs : List Char) : (greedyMark cs).2 <:+ cs := by
  unfold greedyMark
  split
  next rest => exact List.suffix_cons '?' rest
  next => exact List.suffix_rfl

lemma decimal_suffix (f : Flags) (cs : List Char) : (decimal f cs).2 <:+ cs :=
  (List.dropWhile_suffix _).trans ((gather_suffix _ _ _ _).trans (List.dropWhile_suffix _))

lemma countEnd_suffix {n m : Count} {greedy : Bool} (h : countEnd f n cs = some (m, greedy, rest)) :
    rest <:+ cs := by
  unfold countEnd at h
  split at h
  next inner =>
    split at h
    next =>
      simp only [Option.some.injEq, Prod.mk.injEq] at h
      obtain ⟨-, -, rfl⟩ := h
      exact (greedyMark_suffix _).trans ((skip_suffix f inner).trans (List.suffix_cons '}' inner))
    next => contradiction
  next => contradiction

lemma countLeast_suffix {least : Nat} {m : Count} {greedy : Bool}
    (h : countLeast f least cs = some (m, greedy, rest)) :
    rest <:+ cs := by
  unfold countLeast at h
  split at h
  next inner =>
    have hskip := (skip_suffix f inner).trans (List.suffix_cons ',' inner)
    split at h
    next inner' hr =>
      rw [hr] at hskip
      exact (countEnd_suffix h).trans hskip
    next =>
      have hdecimal := decimal_suffix f (skip f inner)
      split at h
      next most rest' hd =>
        rw [hd] at hdecimal
        exact (countEnd_suffix h).trans (hdecimal.trans hskip)
      next => contradiction
  next => exact countEnd_suffix h

lemma count_suffix {m : Count} {greedy : Bool} (h : count f cs = some (m, greedy, rest)) :
    rest <:+ cs := by
  have hdecimal := (decimal_suffix f (skip f cs)).trans (skip_suffix f cs)
  unfold count at h
  split at h
  next least rest' hd =>
    rw [hd] at hdecimal
    exact (countLeast_suffix h).trans hdecimal
  next => contradiction

lemma hexFixed_suffix {n value v : Nat} (h : hexFixed f n value cs = some (v, rest)) :
    rest <:+ cs := by
  induction n generalizing value cs with
  | zero =>
    obtain ⟨-, rfl⟩ := Prod.mk.inj (Option.some.inj h)
    exact List.suffix_rfl
  | succ n ih =>
    rcases cs with _ | ⟨c, cs⟩
    · contradiction
    · simp only [hexFixed] at h
      obtain ⟨d, -, h⟩ := Option.bind_eq_some_iff.mp h
      exact (ih h).trans ((skip_suffix f cs).trans (List.suffix_cons c cs))

lemma braced_suffix {inside : List Char} (h : braced f cs = some (inside, rest)) : rest <:+ cs := by
  have hgather := gather_suffix f.verbose (· != '}') false cs
  unfold braced at h
  split at h
  next front c back hg =>
    obtain ⟨-, rfl⟩ := Prod.mk.inj (Option.some.inj h)
    rw [hg] at hgather
    exact (List.suffix_cons c _).trans hgather
  next => contradiction

lemma hexChar_suffix {n : Nat} {byte : Bool} {a : Atom} (h : hexChar f n byte cs = some (a, rest)) :
    rest <:+ cs := by
  have hskip := skip_suffix f cs
  unfold hexChar at h
  split at h
  next inner hr =>
    simp only [Option.bind_eq_bind, Option.bind_eq_some_iff] at h
    obtain ⟨⟨digits, rest'⟩, hbraced, c, -, h⟩ := h
    obtain ⟨-, rfl⟩ := Prod.mk.inj (Option.some.inj h)
    rw [hr] at hskip
    exact (braced_suffix hbraced).trans ((List.suffix_cons '{' inner).trans hskip)
  next =>
    simp only [Option.bind_eq_bind, Option.bind_eq_some_iff] at h
    obtain ⟨⟨value, rest'⟩, hfixed, c, -, h⟩ := h
    obtain ⟨-, rfl⟩ := Prod.mk.inj (Option.some.inj h)
    exact (hexFixed_suffix hfixed).trans hskip

lemma propertyAtom_suffix [Dialect] {negated : Bool} {a : Atom}
    (h : propertyAtom f negated cs = some (a, rest)) : rest <:+ cs := by
  have hskip := skip_suffix f cs
  simp only [propertyAtom, Option.bind_eq_bind, Option.bind_eq_some_iff] at h
  obtain ⟨_, -, h⟩ := h
  split at h
  next inner hr =>
    simp only [Option.bind_eq_some_iff] at h
    obtain ⟨⟨name, rest'⟩, hname, set, -, h⟩ := h
    obtain ⟨-, rfl⟩ := Prod.mk.inj (Option.some.inj h)
    rw [hr] at hskip
    exact (braced_suffix hname).trans ((List.suffix_cons '{' inner).trans hskip)
  next => contradiction
  next c inner _ _ hr =>
    rw [Option.bind_some] at h
    obtain ⟨set, -, h⟩ := Option.bind_eq_some_iff.mp h
    obtain ⟨-, rfl⟩ := Prod.mk.inj (Option.some.inj h)
    rw [hr] at hskip
    exact (List.suffix_cons c _).trans hskip
  next => contradiction

lemma wordEdge_suffix {a : Atom} (h : wordEdge f cs = some (a, rest)) : rest <:+ cs := by
  unfold wordEdge at h
  split at h
  next inside =>
    dsimp only at h
    split at h
    next => contradiction
    next c _ _ =>
      split at h
      next =>
        split at h
        next name rest' hg =>
          obtain ⟨l, -, heq⟩ := Option.map_eq_some_iff.mp h
          obtain ⟨-, rfl⟩ := Prod.mk.inj heq
          have hgather :=
            gather_suffix f.verbose (fun c => Text.isAsciiLetter c || c == '-') false inside
          rw [hg] at hgather
          exact (List.suffix_cons '}' _).trans (hgather.trans (List.suffix_cons '{' inside))
        next => contradiction
      next =>
        obtain ⟨-, rfl⟩ := Prod.mk.inj (Option.some.inj h)
        exact List.suffix_rfl
  next =>
    obtain ⟨-, rfl⟩ := Prod.mk.inj (Option.some.inj h)
    exact List.suffix_rfl

lemma escape_suffix [Dialect] {a : Atom} (h : escape f cs = some (a, rest)) : rest <:+ cs := by
  rcases cs with _ | ⟨c, cs⟩
  · contradiction
  refine .trans ?_ (List.suffix_cons c cs)
  simp only [escape] at h
  split at h
  next =>
    obtain ⟨-, rfl⟩ := Prod.mk.inj (Option.some.inj h)
    exact List.suffix_rfl
  next =>
    split at h
    case h_1 | h_2 | h_3 => exact hexChar_suffix h
    case h_4 | h_5 => exact propertyAtom_suffix h
    case h_20 => exact wordEdge_suffix h
    case h_24 => contradiction
    all_goals
      obtain ⟨-, rfl⟩ := Prod.mk.inj (Option.some.inj h)
      exact List.suffix_rfl

section Class

lemma classSign_suffix (cs : List Char) : (classSign cs).2 <:+ cs := by
  unfold classSign
  split
  next rest => exact List.suffix_cons '^' rest
  next => exact List.suffix_rfl

lemma classOpen_suffix {st st' : ClassState} (h : classOpen f st cs = some (st', rest)) :
    rest <:+ cs := by
  have hgather := (gather_suffix f.verbose (· == '-') false (classSign (skip f cs)).2).trans
    ((classSign_suffix (skip f cs)).trans (skip_suffix f cs))
  unfold classOpen at h
  dsimp only at h
  generalize gather f.verbose (· == '-') false (classSign (skip f cs)).2 = g at h hgather
  obtain ⟨dashes, back⟩ := g
  dsimp only at h hgather
  split at h
  next => contradiction
  next inner =>
    obtain ⟨-, rfl⟩ := Prod.mk.inj (Option.some.inj h)
    exact (List.suffix_cons ']' _).trans hgather
  next =>
    obtain ⟨-, rfl⟩ := Prod.mk.inj (Option.some.inj h)
    exact hgather

lemma namedClass?_suffix {s : CharSet} (h : namedClass? f cs = some (s, rest)) : rest <:+ cs := by
  unfold namedClass? at h
  split at h
  next inner =>
    have hsign := (classSign_suffix inner).trans (List.suffix_cons ':' inner)
    dsimp only at h
    split at h
    next name rest' hspan =>
      obtain ⟨t, -, heq⟩ := Option.map_eq_some_iff.mp h
      obtain ⟨-, rfl⟩ := Prod.mk.inj heq
      exact (List.suffix_append [':', ']'] _).trans ((span_suffix hspan).trans hsign)
    next => contradiction
  next => contradiction

lemma classAtom_suffix [Dialect] {a : Atom} (h : classAtom f cs = some (a, rest)) :
    rest <:+ cs := by
  unfold classAtom at h
  split at h
  next inner => exact (escape_suffix h).trans (List.suffix_cons '\\' inner)
  next c inner _ =>
    obtain ⟨-, rfl⟩ := Prod.mk.inj (Option.some.inj h)
    exact List.suffix_cons c _
  next => contradiction

lemma classRange_suffix [Dialect] {s : CharSet} (h : classRange f cs = some (s, rest)) :
    rest <:+ cs := by
  simp only [classRange, Option.bind_eq_bind, Option.bind_eq_some_iff] at h
  obtain ⟨⟨a, mid⟩, ha, h⟩ := h
  have hskip := (skip_suffix f mid).trans (classAtom_suffix ha)
  dsimp only at h
  split at h
  next => contradiction
  next inner hr =>
    rw [hr] at hskip
    split at h
    next =>
      obtain ⟨t, -, heq⟩ := Option.bind_eq_some_iff.mp h
      obtain ⟨-, rfl⟩ := Prod.mk.inj (Option.some.inj heq)
      exact hskip
    next =>
      simp only [Option.bind_eq_some_iff] at h
      obtain ⟨⟨b, rest'⟩, hb, first, -, last, -, u, -, h⟩ := h
      obtain ⟨-, rfl⟩ := Prod.mk.inj (Option.some.inj h)
      exact (classAtom_suffix hb).trans
        ((skip_suffix f inner).trans ((List.suffix_cons '-' inner).trans hskip))
  next =>
    obtain ⟨t, -, heq⟩ := Option.bind_eq_some_iff.mp h
    obtain ⟨-, rfl⟩ := Prod.mk.inj (Option.some.inj heq)
    exact hskip

lemma classStep_suffix [Dialect] {st : ClassState} {next : ClassPart ⊕ ClassState}
    (h : classStep f st cs = some (next, rest)) : rest <:+ cs := by
  have hskip := skip_suffix f cs
  unfold classStep at h
  split at h
  case h_1 => contradiction
  case h_2 inner hr =>
    rw [hr] at hskip
    have hinner := (List.suffix_cons '[' inner).trans hskip
    split at h
    next s mid hs =>
      obtain ⟨-, rfl⟩ := Prod.mk.inj (Option.some.inj h)
      exact (namedClass?_suffix hs).trans hinner
    next =>
      obtain ⟨⟨st', mid⟩, hopen, heq⟩ := Option.map_eq_some_iff.mp h
      obtain ⟨-, rfl⟩ := Prod.mk.inj heq
      exact (classOpen_suffix hopen).trans hinner
  case h_3 inner hr =>
    obtain ⟨_, -, heq⟩ := Option.map_eq_some_iff.mp h
    obtain ⟨-, rfl⟩ := Prod.mk.inj heq
    rw [hr] at hskip
    exact (List.suffix_cons ']' inner).trans hskip
  case h_4 inner hr =>
    obtain ⟨-, rfl⟩ := Prod.mk.inj (Option.some.inj h)
    rw [hr] at hskip
    exact (List.suffix_append ['&', '&'] inner).trans hskip
  case h_5 inner hr =>
    obtain ⟨-, rfl⟩ := Prod.mk.inj (Option.some.inj h)
    rw [hr] at hskip
    exact (List.suffix_append ['-', '-'] inner).trans hskip
  case h_6 inner hr =>
    obtain ⟨-, rfl⟩ := Prod.mk.inj (Option.some.inj h)
    rw [hr] at hskip
    exact (List.suffix_append ['~', '~'] inner).trans hskip
  case h_7 =>
    obtain ⟨⟨s, mid⟩, hs, heq⟩ := Option.map_eq_some_iff.mp h
    obtain ⟨-, rfl⟩ := Prod.mk.inj heq
    exact (classRange_suffix hs).trans hskip

lemma classRest_suffix [Dialect] {fuel : Nat} {st : ClassState} {part : ClassPart}
    (h : classRest f fuel st cs = some (part, rest)) : rest <:+ cs := by
  induction fuel generalizing st cs with
  | zero => contradiction
  | succ fuel ih =>
    obtain ⟨⟨next, mid⟩, hstep, h⟩ := Option.bind_eq_some_iff.mp h
    have hmid := classStep_suffix hstep
    cases next with
    | inl p =>
      obtain ⟨-, rfl⟩ := Prod.mk.inj (Option.some.inj h)
      exact hmid
    | inr st' => exact (ih h).trans hmid

lemma bracketed_suffix [Dialect] {part : ClassPart} (h : bracketed f cs = some (part, rest)) :
    rest <:+ cs := by
  simp only [bracketed, Option.bind_eq_bind, Option.bind_eq_some_iff] at h
  obtain ⟨⟨st, mid⟩, hopen, ⟨p, rest'⟩, hrest, set, -, h⟩ := h
  obtain ⟨-, rfl⟩ := Prod.mk.inj (Option.some.inj h)
  exact (classRest_suffix hrest).trans (classOpen_suffix hopen)

end Class

lemma step_suffix [Dialect] {st st' : State} {c : Char} (h : step st c cs = some (st', rest)) :
    rest <:+ cs := by
  unfold step at h
  split at h
  case h_1 =>
    obtain ⟨⟨o, mid⟩, ho, h⟩ := Option.bind_eq_some_iff.mp h
    obtain ⟨-, rfl⟩ := map_mk_eq_some.mp h
    exact opening_suffix ho
  case h_2 =>
    obtain ⟨-, rfl⟩ := map_mk_eq_some.mp h
    exact List.suffix_rfl
  case h_4 =>
    obtain ⟨⟨part, mid⟩, hpart, heq⟩ := Option.map_eq_some_iff.mp h
    obtain ⟨-, rfl⟩ := Prod.mk.inj heq
    exact bracketed_suffix hpart
  case h_5 | h_6 | h_7 =>
    dsimp only at h
    obtain ⟨-, rfl⟩ := map_mk_eq_some.mp h
    exact greedyMark_suffix cs
  case h_8 =>
    obtain ⟨⟨n, greedy, mid⟩, hn, h⟩ := Option.bind_eq_some_iff.mp h
    obtain ⟨-, rfl⟩ := map_mk_eq_some.mp h
    exact count_suffix hn
  case h_9 =>
    obtain ⟨⟨a, mid⟩, ha, h⟩ := Option.bind_eq_some_iff.mp h
    obtain ⟨p, -, heq⟩ := Option.map_eq_some_iff.mp h
    obtain ⟨-, rfl⟩ := Prod.mk.inj heq
    exact escape_suffix ha
  case h_10 =>
    obtain ⟨p, -, heq⟩ := Option.map_eq_some_iff.mp h
    obtain ⟨-, rfl⟩ := Prod.mk.inj heq
    exact List.suffix_rfl
  all_goals
    obtain ⟨-, rfl⟩ := Prod.mk.inj (Option.some.inj h)
    exact List.suffix_rfl

/-- Each step takes a character at least. -/
lemma steps_length [Dialect] {fuel : Nat} {st st' : State} (h : steps fuel st cs = some st') :
    steps (cs.length + 1) st cs = some st' := by
  induction fuel generalizing st cs with
  | zero => contradiction
  | succ fuel ih =>
    have hskip := (skip_suffix st.flags cs).length_le
    unfold steps at h ⊢
    split
    next hs => simpa [hs] using h
    next c inner hs =>
      simp only [hs] at h
      rw [hs, List.length_cons] at hskip
      obtain ⟨⟨st₁, rest⟩, hstep, h⟩ := Option.bind_eq_some_iff.mp h
      have hrest := (step_suffix hstep).length_le
      simp only [hstep, Option.bind_some]
      exact steps_mono (ih h) (by omega)

end BlockHue.Pattern.Read
