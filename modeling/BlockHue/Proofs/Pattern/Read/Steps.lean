import BlockHue.Proofs.Pattern.Read.Class

/-! Steps of the reader. A step stays the same in front of a closing parenthesis, and inside further
groups as long as it closes none of them; more fuel than needed changes nothing. A text is whole if
it can be read as a pattern and a closing parenthesis behind it is one too many. -/
namespace BlockHue.Pattern.Read

variable {α : Type} {cs tail : List Char}

lemma map_mk_eq_some {x : Option α} {a : α} {rest rest' : List Char} :
    x.map (·, rest) = some (a, rest') ↔ x = some a ∧ rest = rest' := by
  cases x <;> simp

lemma step_carries [Dialect] {st st' : State} {c : Char} {rest : List Char}
    (h : step st c cs = some (st', rest)) :
    Carries (step st c) cs (st', ·) rest := by
  unfold Carries
  unfold step at h ⊢
  split at h
  case h_1 =>
    obtain ⟨⟨o, mid⟩, ho, h⟩ := Option.bind_eq_some_iff.mp h
    obtain ⟨henter, rfl⟩ := map_mk_eq_some.mp h
    exact (opening_carries ho).imp (fun hon tail => by simp [hon, henter])
      fun ⟨hnil, hon⟩ => ⟨hnil, by simp [hon, henter]⟩
  case h_4 =>
    obtain ⟨⟨part, mid⟩, hpart, heq⟩ := Option.map_eq_some_iff.mp h
    obtain ⟨rfl, rfl⟩ := Prod.mk.inj heq
    exact .inl fun tail => by simp [bracketed_close hpart]
  case h_5 | h_6 | h_7 =>
    dsimp only at h
    obtain ⟨hrepeat, rfl⟩ := map_mk_eq_some.mp h
    exact .inl fun tail => by simp only [greedyMark_close, hrepeat, Option.map_some]
  case h_8 =>
    obtain ⟨⟨n, greedy, mid⟩, hn, h⟩ := Option.bind_eq_some_iff.mp h
    obtain ⟨hrepeat, rfl⟩ := map_mk_eq_some.mp h
    exact (count_carries hn).imp (fun hon tail => by simp [hon, hrepeat])
      fun ⟨hnil, hon⟩ => ⟨hnil, by simp [hon, hrepeat]⟩
  case h_9 =>
    obtain ⟨⟨a, mid⟩, ha, h⟩ := Option.bind_eq_some_iff.mp h
    obtain ⟨p, hatom, heq⟩ := Option.map_eq_some_iff.mp h
    obtain ⟨rfl, rfl⟩ := Prod.mk.inj heq
    exact (escape_carries ha).imp (fun hon tail => by simp [hon, hatom])
      fun ⟨hnil, hon⟩ => ⟨hnil, by simp [hon, hatom]⟩
  case h_2 =>
    obtain ⟨hclose, rfl⟩ := map_mk_eq_some.mp h
    exact .inl fun tail => by simp [hclose]
  case h_10 =>
    obtain ⟨p, hdot, heq⟩ := Option.map_eq_some_iff.mp h
    obtain ⟨rfl, rfl⟩ := Prod.mk.inj heq
    exact .inl fun tail => by simp [hdot]
  all_goals
    obtain ⟨rfl, rfl⟩ := Prod.mk.inj (Option.some.inj h)
    exact .inl fun tail => rfl

/-- A reader inside further groups: it holds the same, with more frames around it, and
knows no fewer names. -/
structure Inside (around : List Frame) (st outer : State) : Prop where
  flags : outer.flags = st.flags
  frames : outer.frames = st.frames ++ around
  level : outer.level = st.level
  names : st.names ⊆ outer.names

namespace Inside

variable {around : List Frame} {st outer outer' : State}

lemma push (h : Inside around st outer) (p : Pattern) (height : Nat) :
    Inside around (st.push p height) (outer.push p height) :=
  ⟨h.flags, h.frames, by simp [State.push, h.level], h.names⟩

lemma openGroup (h : Inside around st outer) (name : Option String) (g : Flags) :
    Inside around (st.openGroup name g) (outer.openGroup name g) :=
  ⟨rfl, by simp [State.openGroup, h.flags, h.frames, h.level], rfl, h.names⟩

lemma closeGroup (h : Inside around st outer) (hne : st.frames ≠ [])
    (houter : outer.closeGroup = some outer') :
    ∃ st', st.closeGroup = some st' ∧ Inside around st' outer' := by
  obtain ⟨frame, frames, hframes⟩ := List.exists_cons_of_ne_nil hne
  unfold State.closeGroup at houter ⊢
  rw [h.frames, hframes, h.level] at houter
  rw [hframes]
  obtain rfl := Option.some.inj houter
  exact ⟨_, rfl, rfl, rfl, rfl, h.names⟩

lemma repeatLast (h : Inside around st outer) {least : Nat} {most : Option Nat} {greedy : Bool}
    (houter : outer.repeatLast least most greedy = some outer') :
    ∃ st', st.repeatLast least most greedy = some st' ∧ Inside around st' outer' := by
  unfold State.repeatLast at houter ⊢
  rw [h.level, h.flags] at houter
  obtain ⟨level, hlevel, rfl⟩ := Option.map_eq_some_iff.mp houter
  exact ⟨{ st with level }, by rw [hlevel]; rfl, rfl, h.frames, rfl, h.names⟩

lemma enter (h : Inside around st outer) {o : Opening} (houter : outer.enter o = some outer') :
    ∃ st', st.enter o = some st' ∧ Inside around st' outer' := by
  cases o with
  | capture name =>
    cases name with
    | none =>
      obtain rfl := Option.some.inj houter
      rw [h.flags]
      exact ⟨_, rfl, h.openGroup _ _⟩
    | some name =>
      simp only [State.enter] at houter ⊢
      split at houter
      · contradiction
      next hname =>
        have hnew : ¬ st.names.contains name = true := fun hmem =>
          hname (List.contains_iff_mem.mpr (h.names (List.contains_iff_mem.mp hmem)))
        obtain rfl := Option.some.inj houter
        rw [if_neg hnew]
        exact ⟨_, rfl, h.flags, by simp [State.openGroup, h.flags, h.frames, h.level], rfl,
          List.cons_subset_cons name h.names⟩
  | plain g =>
    obtain rfl := Option.some.inj houter
    exact ⟨_, rfl, h.openGroup _ _⟩
  | flags g =>
    obtain rfl := Option.some.inj houter
    exact ⟨_, rfl, rfl, h.frames, by simp [h.level], h.names⟩

/-- A step inside further groups is a step without them, unless it closes one of them. -/
lemma step [Dialect] (h : Inside around st outer) {c : Char} {rest : List Char}
    (hclose : c = ')' → st.frames ≠ []) (houter : Read.step outer c cs = some (outer', rest)) :
    ∃ st', Read.step st c cs = some (st', rest) ∧ Inside around st' outer' := by
  unfold Read.step at houter ⊢
  rw [h.flags] at houter
  split at houter
  case h_1 =>
    obtain ⟨⟨o, mid⟩, ho, houter⟩ := Option.bind_eq_some_iff.mp houter
    obtain ⟨henter, rfl⟩ := map_mk_eq_some.mp houter
    obtain ⟨st', hst, hinside⟩ := h.enter henter
    exact ⟨st', by simp [ho, hst], hinside⟩
  case h_2 =>
    obtain ⟨hgroup, rfl⟩ := map_mk_eq_some.mp houter
    obtain ⟨st', hst, hinside⟩ := h.closeGroup (hclose rfl) hgroup
    exact ⟨st', by rw [hst]; rfl, hinside⟩
  case h_3 =>
    obtain ⟨rfl, rfl⟩ := Prod.mk.inj (Option.some.inj houter)
    exact ⟨_, rfl, rfl, h.frames, by simp [h.level], h.names⟩
  case h_4 =>
    obtain ⟨⟨part, mid⟩, hpart, heq⟩ := Option.map_eq_some_iff.mp houter
    obtain ⟨rfl, rfl⟩ := Prod.mk.inj heq
    exact ⟨_, by rw [hpart]; rfl, h.push _ _⟩
  case h_5 | h_6 | h_7 =>
    dsimp only at houter
    obtain ⟨hrepeat, rfl⟩ := map_mk_eq_some.mp houter
    obtain ⟨st', hst, hinside⟩ := h.repeatLast hrepeat
    exact ⟨st', by simp only [hst, Option.map_some], hinside⟩
  case h_8 =>
    obtain ⟨⟨n, greedy, mid⟩, hn, houter⟩ := Option.bind_eq_some_iff.mp houter
    obtain ⟨hrepeat, rfl⟩ := map_mk_eq_some.mp houter
    obtain ⟨st', hst, hinside⟩ := h.repeatLast hrepeat
    exact ⟨st', by simp [hn, hst], hinside⟩
  case h_9 =>
    obtain ⟨⟨a, mid⟩, ha, houter⟩ := Option.bind_eq_some_iff.mp houter
    obtain ⟨p, hatom, heq⟩ := Option.map_eq_some_iff.mp houter
    obtain ⟨rfl, rfl⟩ := Prod.mk.inj heq
    exact ⟨_, by simp [ha, hatom], h.push _ _⟩
  case h_10 =>
    obtain ⟨p, hdot, heq⟩ := Option.map_eq_some_iff.mp houter
    obtain ⟨rfl, rfl⟩ := Prod.mk.inj heq
    exact ⟨_, by rw [hdot]; rfl, h.push _ _⟩
  all_goals
    obtain ⟨rfl, rfl⟩ := Prod.mk.inj (Option.some.inj houter)
    exact ⟨_, rfl, h.push _ _⟩

end Inside

/-- More fuel than needed changes nothing. -/
lemma steps_mono [Dialect] {fuel more : Nat} {st st' : State} (h : steps fuel st cs = some st')
    (hle : fuel ≤ more) :
    steps more st cs = some st' := by
  induction fuel generalizing more st cs with
  | zero => contradiction
  | succ fuel ih =>
    obtain ⟨more, rfl⟩ : ∃ m, more = m + 1 := ⟨more - 1, by omega⟩
    unfold steps at h ⊢
    split
    next hs => simpa [hs] using h
    next c inner hs =>
      simp only [hs] at h
      obtain ⟨⟨st'', rest⟩, hstep, h⟩ := Option.bind_eq_some_iff.mp h
      simp only [hstep, Option.bind_some]
      exact ih h (by omega)

/-- The state in front of a pattern. -/
def start (ignoreCase : Bool) : State := { flags := { ignoreCase } }

lemma parse?_eq_some_iff [Dialect] {ignoreCase : Bool} {q : Pattern} :
    parse? ignoreCase cs = some q ↔ ∃ st, steps (cs.length + 1) (start ignoreCase) cs = some st ∧
      st.frames = [] ∧
      st.level.whole.height ≤ heightLimit ∧ st.level.whole.pattern = q := by
  simp [parse?, start, Option.bind_eq_some_iff]

lemma read?_eq_some_iff [Dialect] {ignoreCase : Bool} {q : Pattern} :
    read? ignoreCase cs = some q ↔ Dialect.fits ignoreCase cs = true ∧
      parse? ignoreCase cs = some q := by
  simp [read?]

/-- A text that is a pattern of its own: it can be read, and a closing parenthesis behind
it is one too many. -/
def Whole [Dialect] (ignoreCase : Bool) (p : List Char) : Prop :=
  (parse? ignoreCase p).isSome = true ∧ parse? ignoreCase (p ++ [')']) = none

end BlockHue.Pattern.Read
