import BlockHue.Proofs.Pattern.Read.Steps

/-! Texts that leak. A text between the parentheses of a group can close the group itself, leave a
group of its own open, or stop inside of an item or a comment that goes on behind it. Main
statement: a text that does none of this is read in a group as it is read alone, and leaves what is
around the group as it was. -/
namespace BlockHue.Pattern.Read

variable [Dialect] {ignoreCase : Bool} {p cs tail : List Char}

def Move (a b : State × List Char) : Prop :=
  ∃ c rest, skip a.1.flags a.2 = c :: rest ∧ step a.1 c rest = some b

/-- The ways in which a text, read up to `cs`, mixes with a closing parenthesis and
more that follow it. -/
inductive Open (st : State) (cs : List Char) : Prop
  /-- A comment goes on behind the text. -/
  | comment (tail : List Char)
      (h : skip st.flags (cs ++ ')' :: tail) ≠ skip st.flags cs ++ ')' :: tail)
  /-- A group is left open. -/
  | group (h : skip st.flags cs = []) (hframes : st.frames ≠ [])
  /-- A group is closed that was not opened in the text. -/
  | paren {rest : List Char} (h : skip st.flags cs = ')' :: rest) (hframes : st.frames = [])
  /-- An item goes on behind the text. -/
  | item {c : Char} {rest : List Char} (tail : List Char) (h : skip st.flags cs = c :: rest)
      (hsome : (step st c (rest ++ ')' :: tail)).isSome = true)
      (hne : step st c (rest ++ ')' :: tail) ≠
        (step st c rest).map fun r => (r.1, r.2 ++ ')' :: tail))

/-- A text that, read by itself, comes to a point where it mixes with what follows. -/
def Leaks (ignoreCase : Bool) (p : List Char) : Prop :=
  ∃ st cs, Relation.ReflTransGen Move (start ignoreCase, p) (st, cs) ∧ Open st cs

/-- Inside further groups a text that mixes with nothing is read to its end as without them; the
parenthesis behind it closes the innermost of the groups around it. -/
lemma Inside.closes {around : List Frame} {st outer final : State} {more : Nat}
    (h : Inside around st outer)
    (hsealed : ∀ st' cs', Relation.ReflTransGen Move (st, cs) (st', cs') → ¬ Open st' cs')
    (hfinal : steps more outer (cs ++ ')' :: tail) = some final) :
    ∃ st' outer' more', steps more st cs = some st' ∧ st'.frames = [] ∧ Inside around st' outer' ∧
      (outer'.closeGroup.bind (steps more' · tail)) = some final := by
  induction more generalizing st outer cs with
  | zero => contradiction
  | succ more ih =>
    have hhere : ¬ Open st cs := hsealed st cs .refl
    have hskip : skip st.flags (cs ++ ')' :: tail) = skip st.flags cs ++ ')' :: tail := by
      by_contra hne
      exact hhere (.comment tail hne)
    rw [Read.steps, h.flags, hskip] at hfinal
    cases hs : skip st.flags cs with
    | nil =>
      have hframes : st.frames = [] := by
        by_contra hne
        exact hhere (.group hs hne)
      rw [hs] at hfinal
      obtain ⟨⟨outer', rest⟩, hstep, hfinal⟩ := Option.bind_eq_some_iff.mp hfinal
      obtain ⟨hclose, rfl⟩ := map_mk_eq_some.mp hstep
      exact ⟨st, outer, more, by rw [Read.steps, hs], hframes, h, by rw [hclose]; exact hfinal⟩
    | cons c rest =>
      rw [hs, List.cons_append] at hfinal
      obtain ⟨⟨outer₁, rest₁⟩, hstep, hfinal⟩ := Option.bind_eq_some_iff.mp hfinal
      have hclose : c = ')' → st.frames ≠ [] := by
        rintro rfl hnil
        exact hhere (.paren hs hnil)
      obtain ⟨st₁, hst₁, hinside⟩ := h.step hclose hstep
      have hcarry : Read.step st c (rest ++ ')' :: tail) = (Read.step st c rest).map fun r =>
          (r.1, r.2 ++ ')' :: tail) := by
        by_contra hne
        exact hhere (.item tail hs (by rw [hst₁]; rfl) hne)
      rw [hst₁] at hcarry
      obtain ⟨⟨st₂, rest₂⟩, hst₂, heq⟩ := Option.map_eq_some_iff.mp hcarry.symm
      obtain ⟨rfl, rfl⟩ := Prod.mk.inj heq
      have hmove : Move (st, cs) (st₂, rest₂) := ⟨c, rest, hs, hst₂⟩
      obtain ⟨st', outer', more', hst', hrest⟩ :=
        ih hinside (fun st' cs' hcomes => hsealed st' cs' (.head hmove hcomes)) hfinal
      refine ⟨st', outer', more', ?_, hrest⟩
      rw [Read.steps, hs]
      simpa only [hst₂, Option.bind_some] using hst'

/-- What a text is read as, by itself and with every group closed again. -/
def ReadAs (ignoreCase : Bool) (p : List Char) (b : Branch) : Prop :=
  ∃ fuel st, steps fuel (start ignoreCase) p = some st ∧ st.frames = [] ∧ b = st.level.whole

/-- In a group, a text is read as one item; `P` holds of what it is read as, and what is
around the group stays. -/
def Encloses (ignoreCase : Bool) (P : Branch → Prop) (p : List Char) : Prop :=
  ∀ outer more tail final, outer.flags = { ignoreCase } →
    steps more outer ("(?:".toList ++ p ++ ")".toList ++ tail) = some final →
    ∃ b names more', P b ∧
      steps more' { outer with level := outer.level.push b.pattern (b.height + 1), names } tail =
        some final

lemma steps_open {more : Nat} {outer final : State} (hflags : outer.flags = { ignoreCase })
    (h : steps more outer ("(?:".toList ++ p ++ ")".toList ++ tail) = some final) :
    steps more ⟨{ ignoreCase }, ⟨none, { ignoreCase }, outer.level⟩ :: outer.frames, {},
      outer.names⟩ (p ++ ')' :: tail) =
      some final := by
  rcases outer with ⟨flags, frames, level, names⟩
  obtain rfl : flags = { ignoreCase } := hflags
  have hopen :
      steps (more + 1) ⟨{ ignoreCase }, frames, level, names⟩
        ("(?:".toList ++ p ++ ")".toList ++ tail) =
      steps more ⟨{ ignoreCase }, ⟨none, { ignoreCase }, level⟩ :: frames, {}, names⟩
        (p ++ ')' :: tail) := by
    rw [List.append_assoc, List.append_assoc]
    rfl
  rw [← hopen]
  exact steps_mono h (Nat.le_succ more)

/-- A text that does not leak is read in a group as it is read alone. -/
lemma encloses_of_not_leaks (h : ¬ Leaks ignoreCase p) :
    Encloses ignoreCase (ReadAs ignoreCase p) p := by
  intro outer more tail final hflags hfinal
  have hinner := steps_open hflags hfinal
  have hinside : Inside (⟨none, { ignoreCase }, outer.level⟩ :: outer.frames) (start ignoreCase)
      ⟨{ ignoreCase }, ⟨none, { ignoreCase }, outer.level⟩ :: outer.frames, {}, outer.names⟩ :=
    ⟨rfl, rfl, rfl, List.nil_subset _⟩
  obtain ⟨st, outer', more', hst, hframes, hin, hclose⟩ :=
    hinside.closes (fun st cs hcomes hopen => h ⟨st, cs, hcomes, hopen⟩) hinner
  obtain ⟨final', hfinal', hrest⟩ := Option.bind_eq_some_iff.mp hclose
  simp only [State.closeGroup, hin.frames, hframes, List.nil_append, hin.level,
    Option.some.injEq] at hfinal'
  subst hfinal'
  refine ⟨st.level.whole, outer'.names, more', ⟨more, st, hst, hframes, rfl⟩, ?_⟩
  rw [← hflags] at hrest
  exact hrest

lemma Encloses.imp {P Q : Branch → Prop} (h : Encloses ignoreCase P p) (himp : ∀ b, P b → Q b) :
    Encloses ignoreCase Q p := by
  intro outer more tail final hflags hfinal
  obtain ⟨b, names, more', hb, hrest⟩ := h outer more tail final hflags hfinal
  exact ⟨b, names, more', himp b hb, hrest⟩

lemma encloses_of_steps {P : Branch → Prop}
    (h : ∀ frames names more tail final,
      steps more ⟨{ ignoreCase }, frames, {}, names⟩ (p ++ ')' :: tail) = some final →
        ∃ level names' more', P level.whole ∧
          steps more' ⟨{ ignoreCase }, frames, level, names'⟩ (')' :: tail) = some final) :
    Encloses ignoreCase P p := by
  intro outer more tail final hflags hfinal
  obtain ⟨level, names, more', hlevel, hrest⟩ := h _ _ _ _ _ (steps_open hflags hfinal)
  have hclose :
      steps (more' + 1) ⟨{ ignoreCase }, ⟨none, { ignoreCase }, outer.level⟩ :: outer.frames,
      level, names⟩
      (')' :: tail) =
      steps more' ⟨{ ignoreCase }, outer.frames,
        outer.level.push level.whole.pattern (level.whole.height + 1), names⟩
        tail := rfl
  refine ⟨level.whole, names, more', hlevel, ?_⟩
  rw [hflags, ← hclose]
  exact steps_mono hrest (Nat.le_succ more')

section Whole

/-- A run that reads a text to its end goes on behind each move. If the rest then takes in a
parenthesis behind it, so does the text. -/
lemma steps_of_move {fuel : Nat} {st st₁ final : State} {cs₁ : List Char}
    (hmove : Move (st, cs) (st₁, cs₁)) (h : steps fuel st cs = some final) :
    ∃ fuel₁, steps fuel₁ st₁ cs₁ = some final ∧
      (steps fuel₁ st₁ (cs₁ ++ [')']) = some final → steps fuel st (cs ++ [')']) = some final) := by
  obtain ⟨c, rest, hs, hstep⟩ := hmove
  rcases fuel with _ | fuel
  · contradiction
  · have hskip : skip st.flags (cs ++ [')']) = c :: (rest ++ [')']) := by
      rw [skip_append (by simp [hs]), hs, List.cons_append]
    rw [steps, hs] at h
    simp only [hstep, Option.bind_some] at h
    refine ⟨fuel, h, fun htaken => ?_⟩
    rw [steps, hskip]
    rcases step_carries hstep with hon | ⟨rfl, hon⟩
    · simpa only [hon, Option.bind_some] using htaken
    · simpa only [hon, Option.bind_some] using h

lemma steps_of_moves {fuel : Nat} {st st' final : State} {cs' : List Char}
    (hmoves : Relation.ReflTransGen Move (st, cs) (st', cs')) (h : steps fuel st cs = some final) :
    ∃ fuel', steps fuel' st' cs' = some final ∧
      (steps fuel' st' (cs' ++ [')']) = some final → steps fuel st (cs ++ [')']) = some final) := by
  generalize ha : (st, cs) = a at hmoves
  induction hmoves using Relation.ReflTransGen.head_induction_on generalizing fuel st cs with
  | refl =>
    obtain ⟨rfl, rfl⟩ := Prod.mk.inj ha
    exact ⟨fuel, h, id⟩
  | @head a b hmove _ ih =>
    obtain ⟨st₁, cs₁⟩ := b
    subst ha
    obtain ⟨fuel₁, h₁, htaken₁⟩ := steps_of_move hmove h
    obtain ⟨fuel', h', htaken'⟩ := ih h₁ rfl
    exact ⟨fuel', h', fun htaken => htaken₁ (htaken' htaken)⟩

/-- Where a text that is read to its end mixes with what follows, it takes in a
parenthesis behind it. -/
lemma Open.taken {fuel : Nat} {st final : State} (hopen : Open st cs)
    (h : steps fuel st cs = some final) (hframes : final.frames = []) :
    steps fuel st (cs ++ [')']) = some final := by
  rcases fuel with _ | fuel
  · contradiction
  rw [steps] at h
  cases hopen with
  | comment tail hne =>
    rcases skip_close st.flags cs with hon | ⟨hs, hon⟩
    · exact absurd (hon tail) hne
    · rw [hs] at h
      rw [steps, hon]
      exact h
  | group hs hne =>
    rw [hs] at h
    obtain rfl := Option.some.inj h
    contradiction
  | paren hs hnil =>
    rw [hs] at h
    simp [step, State.closeGroup, hnil] at h
  | @item c rest tail hs hsome hne =>
    rw [hs] at h
    obtain ⟨⟨st₁, rest₁⟩, hstep, h⟩ := Option.bind_eq_some_iff.mp h
    have hskip : skip st.flags (cs ++ [')']) = c :: (rest ++ [')']) := by
      rw [skip_append (by simp [hs]), hs, List.cons_append]
    rcases step_carries hstep with hon | ⟨rfl, hon⟩
    · exact absurd (by rw [hon, hstep]; rfl) hne
    · rw [steps, hskip]
      simpa only [hon, Option.bind_some] using h

lemma Whole.not_leaks (h : Whole ignoreCase p) : ¬ Leaks ignoreCase p := by
  rintro ⟨st, cs, hmoves, hopen⟩
  obtain ⟨q, hq⟩ := Option.isSome_iff_exists.mp h.1
  obtain ⟨final, hfinal, hframes, hheight⟩ := parse?_eq_some_iff.mp hq
  obtain ⟨fuel, hrest, htaken⟩ := steps_of_moves hmoves hfinal
  have hmore : steps ((p ++ [')']).length + 1) (start ignoreCase) (p ++ [')']) = some final :=
    steps_mono (htaken (hopen.taken hrest hframes)) (by simp)
  have hread := parse?_eq_some_iff.mpr ⟨final, hmore, hframes, hheight⟩
  rw [h.2] at hread
  contradiction

end Whole

end BlockHue.Pattern.Read
