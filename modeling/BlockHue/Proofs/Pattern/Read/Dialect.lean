import Mathlib
import BlockHue.Scan

/-! Reading in different dialects. The least dialect has no named properties and takes only what
every dialect takes. Main statement: what is read in the least dialect is read alike in every
dialect, so a profile that compiles there compiles everywhere, to the same language. -/
namespace BlockHue

/-- The dialect without named properties that takes short patterns only. -/
@[reducible] def Dialect.least : Dialect where
  property? _ _ _ := none
  fits _ source := source.length ≤ 200 && !source.contains '{'
  fits_short _ _ hlength hcount := by simp [hlength, hcount]

open Dialect

lemma Dialect.fits_of_least [Dialect] {ignoreCase : Bool} {cs : List Char}
    (h : @fits least ignoreCase cs = true) :
    fits ignoreCase cs = true := by
  obtain ⟨hlength, hcount⟩ : cs.length ≤ 200 ∧ '{' ∉ cs := by simpa [fits] using h
  exact fits_short ignoreCase cs hlength hcount

namespace Pattern.Read

lemma propertyAtom_least (f : Flags) (negated : Bool) (cs : List Char) :
    @propertyAtom least f negated cs = none := by
  have hnone (ignoreCase : Bool) (name : List Char) :
      @property? least negated ignoreCase name = none := rfl
  unfold propertyAtom
  split <;> simp [hnone]

variable [Dialect] {f : Flags} {cs : List Char}

lemma escape_of_least {r : Atom × List Char} (h : @escape least f cs = some r) :
    escape f cs = some r := by
  rcases cs with _ | ⟨c, cs⟩
  · contradiction
  simp only [escape, propertyAtom_least] at h ⊢
  split at h
  next he => rwa [if_pos he]
  next he =>
    rw [if_neg he]
    split at h
    case h_4 | h_5 => contradiction
    all_goals exact h

lemma classAtom_of_least {r : Atom × List Char} (h : @classAtom least f cs = some r) :
    classAtom f cs = some r := by
  unfold classAtom at h ⊢
  split at h
  · exact escape_of_least h
  · exact h
  · contradiction

lemma classRange_of_least {r : CharSet × List Char} (h : @classRange least f cs = some r) :
    classRange f cs = some r := by
  simp only [classRange, Option.bind_eq_bind, Option.bind_eq_some_iff] at h ⊢
  obtain ⟨⟨a, mid⟩, ha, h⟩ := h
  refine ⟨⟨a, mid⟩, classAtom_of_least ha, ?_⟩
  dsimp only at h ⊢
  split at h
  · contradiction
  next inner _ =>
    split at h
    next hlast => rwa [if_pos hlast]
    next hlast =>
      rw [if_neg hlast]
      obtain ⟨b, hb, h⟩ := Option.bind_eq_some_iff.mp h
      exact Option.bind_eq_some_iff.mpr ⟨b, classAtom_of_least hb, h⟩
  · exact h

lemma classStep_of_least {st : ClassState} {r : (ClassPart ⊕ ClassState) × List Char}
    (h : @classStep least f st cs = some r) : classStep f st cs = some r := by
  unfold classStep at h ⊢
  split at h
  case h_7 =>
    obtain ⟨s, hs, heq⟩ := Option.map_eq_some_iff.mp h
    exact Option.map_eq_some_iff.mpr ⟨s, classRange_of_least hs, heq⟩
  all_goals exact h

lemma classRest_of_least {fuel : Nat} {st : ClassState} {r : ClassPart × List Char}
    (h : @classRest least f fuel st cs = some r) : classRest f fuel st cs = some r := by
  induction fuel generalizing st cs with
  | zero => contradiction
  | succ fuel ih =>
    obtain ⟨⟨next, mid⟩, hstep, h⟩ := Option.bind_eq_some_iff.mp h
    refine Option.bind_eq_some_iff.mpr ⟨(next, mid), classStep_of_least hstep, ?_⟩
    cases next with
    | inl part => exact h
    | inr st' => exact ih h

lemma bracketed_of_least {r : ClassPart × List Char} (h : @bracketed least f cs = some r) :
    bracketed f cs = some r := by
  simp only [bracketed, Option.bind_eq_bind, Option.bind_eq_some_iff] at h ⊢
  obtain ⟨start, hopen, part, hpart, h⟩ := h
  exact ⟨start, hopen, part, classRest_of_least hpart, h⟩

lemma step_of_least {st : State} {c : Char} {r : State × List Char}
    (h : @step least st c cs = some r) :
    step st c cs = some r := by
  unfold step at h ⊢
  split at h
  case h_4 =>
    obtain ⟨part, hpart, heq⟩ := Option.map_eq_some_iff.mp h
    exact Option.map_eq_some_iff.mpr ⟨part, bracketed_of_least hpart, heq⟩
  case h_9 =>
    obtain ⟨a, ha, h⟩ := Option.bind_eq_some_iff.mp h
    exact Option.bind_eq_some_iff.mpr ⟨a, escape_of_least ha, h⟩
  all_goals exact h

lemma steps_of_least {fuel : Nat} {st st' : State} (h : @steps least fuel st cs = some st') :
    steps fuel st cs = some st' := by
  induction fuel generalizing st cs with
  | zero => contradiction
  | succ fuel ih =>
    unfold steps at h ⊢
    split at h
    · exact h
    next c inner _ =>
      obtain ⟨⟨st₁, mid⟩, hstep, h⟩ := Option.bind_eq_some_iff.mp h
      exact Option.bind_eq_some_iff.mpr ⟨(st₁, mid), step_of_least hstep, ih h⟩

end Pattern.Read

namespace Pattern

variable [Dialect] {q : Pattern}

lemma read?_of_least {ignoreCase : Bool} {cs : List Char}
    (h : @read? least ignoreCase cs = some q) :
    read? ignoreCase cs = some q := by
  unfold read? at h ⊢
  split at h
  next hfits =>
    rw [if_pos (fits_of_least hfits)]
    obtain ⟨st, hst, h⟩ := Option.bind_eq_some_iff.mp h
    exact Option.bind_eq_some_iff.mpr ⟨st, Read.steps_of_least hst, h⟩
  next => contradiction

lemma readAll?_of_least {caseSensitive : Bool} {wrap : List Char → List Char}
    {patterns : List (List Char)} (h : @readAll? least caseSensitive wrap patterns = some q) :
    readAll? caseSensitive wrap patterns = some q := by
  unfold readAll? at h ⊢
  split at h
  next hempty => rwa [if_pos hempty]
  next hempty =>
    rw [if_neg hempty]
    exact read?_of_least h

end Pattern

/-- A profile that compiles in the least dialect compiles to the same language in every dialect. -/
lemma Language.compile?_of_least [Dialect] {id : String} {p : Profile} {l : Language}
    (h : @compile? least id p = some l) : compile? id p = some l := by
  simp only [compile?, Keyword.pattern?, Regions.compile?, Comprehensions.compile?,
    Option.bind_eq_bind, Option.bind_eq_some_iff] at h ⊢
  obtain ⟨_, hopen, _, hclose, _, hneutral, r, ⟨_, hblock, _, hline, hr⟩, b,
      ⟨_, hopening, _, hclosing, hb⟩, h⟩ := h
  exact ⟨_, Pattern.readAll?_of_least hopen, _, Pattern.readAll?_of_least hclose, _,
    Pattern.readAll?_of_least hneutral, r,
    ⟨_, Pattern.readAll?_of_least hblock, _, Pattern.readAll?_of_least hline, hr⟩, b,
      ⟨_, Pattern.readAll?_of_least hopening, _, Pattern.readAll?_of_least hclosing, hb⟩, h⟩

end BlockHue
