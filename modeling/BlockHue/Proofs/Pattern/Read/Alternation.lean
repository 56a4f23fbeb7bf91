import BlockHue.Keyword
import BlockHue.Proofs.Pattern.Read.Leak
import BlockHue.Proofs.Pattern.Read.Onward

/-! Several patterns read as one. Main statements: texts that stay inside of their parentheses,
tried in turn, are read as the choice between what each of them is read as; and none of them is
higher than the whole, so each is a pattern by itself if the whole is. -/
namespace BlockHue.Pattern

lemma alternation_singleton (p : List Char) :
    alternation [p] = "(?:".toList ++ p ++ ")".toList := by
  simp [alternation, List.intercalate]

lemma alternation_cons_cons (p q : List Char) (ps : List (List Char)) :
    alternation (p :: q :: ps) = "(?:".toList ++ p ++ ")".toList ++ '|' ::
      alternation (q :: ps) := by
  simp [alternation, List.intercalate]

namespace Read

variable {ignoreCase : Bool} {p tail : List Char}

lemma le_heightOver {n : Nat} {heights : List Nat} (h : n ∈ heights) : n ≤ heightOver heights := by
  have hfold (hs : List Nat) (m : Nat) (hm : n ≤ m ∨ n ∈ hs) : n ≤ hs.foldl max m := by
    induction hs generalizing m with
    | nil => exact hm.resolve_right List.not_mem_nil
    | cons k hs ih =>
      refine ih (max m k) ?_
      rcases hm with hm | hm
      · exact .inl (hm.trans (Nat.le_max_left m k))
      · rcases List.mem_cons.mp hm with rfl | hm
        · exact .inl (Nat.le_max_right m n)
        · exact .inr hm
  unfold heightOver
  split
  · contradiction
  · exact (List.mem_singleton.mp h).le
  · exact (hfold _ 0 (.inr h)).trans (Nat.le_succ _)

namespace Branch

/-- The choice between branches that were groups of their own. -/
def joined (bs : List Branch) : Branch where
  pattern := choice (bs.map Branch.pattern)
  height := heightOver (bs.map (·.height + 1)).reverse

lemma height_le_joined {b : Branch} {bs : List Branch} (h : b ∈ bs) :
    b.height ≤ (joined bs).height :=
  (Nat.le_succ _).trans (le_heightOver (List.mem_reverse.mpr (List.mem_map_of_mem h)))

end Branch

/-- The items of the current branch are no higher than all branches together. -/
lemma Level.height_le_whole {level : Level} (q : Pattern) {height : Nat}
    (h : ⟨some q, height⟩ ∈ level.items) :
    height ≤ level.whole.height := by
  have hbranch : height ≤ level.branch.height := le_heightOver (List.mem_map_of_mem h)
  exact hbranch.trans (le_heightOver List.mem_cons_self)

lemma parse?_of_readAs [Dialect] {b : Branch} (h : ReadAs ignoreCase p b)
    (hheight : b.height ≤ heightLimit) :
    parse? ignoreCase p = some b.pattern := by
  obtain ⟨fuel, st, hst, hframes, rfl⟩ := h
  exact parse?_eq_some_iff.mpr ⟨st, steps_length hst, hframes, hheight, rfl⟩

/-- In a group, a pattern of its own is read as it is by itself. -/
lemma Whole.encloses [Dialect] (h : Whole ignoreCase p) :
    Encloses ignoreCase (fun b => parse? ignoreCase p = some b.pattern) p := by
  refine (encloses_of_not_leaks h.not_leaks).imp ?_
  rintro _ ⟨fuel, st, hst, -, rfl⟩
  obtain ⟨q, hq⟩ := Option.isSome_iff_exists.mp h.1
  obtain ⟨st', hst', -, -, rfl⟩ := parse?_eq_some_iff.mp hq
  rw [steps_length hst] at hst'
  rw [hq, Option.some.inj hst']

section Alternation

variable [Dialect] {α : Type} {P : α → Branch → Prop} {source : α → List Char} {xs : List α}
  {more : Nat} {frames : List Frame}
  {names : List String} {final : State}

/-- Behind branches that are finished, texts that stay inside of their parentheses become
further branches. -/
lemma steps_branches (hne : xs ≠ []) (h : ∀ x ∈ xs, Encloses ignoreCase (P x) (source x))
    {branches : List Branch}
    (hfinal : steps more ⟨{ ignoreCase }, frames, ⟨branches, []⟩, names⟩
      (alternation (xs.map source) ++ tail) = some final) :
    ∃ bs level names' more', List.Forall₂ P xs bs ∧
      level.branch :: level.branches =
        (bs.map fun b => ⟨b.pattern, b.height + 1⟩).reverse ++ branches ∧
      steps more' ⟨{ ignoreCase }, frames, level, names'⟩ tail = some final := by
  induction xs generalizing more branches names with
  | nil => contradiction
  | cons x xs ih =>
    have hx := h x List.mem_cons_self
    cases xs with
    | nil =>
      rw [List.map_singleton, alternation_singleton] at hfinal
      obtain ⟨b, names', more', hb, hrest⟩ := hx _ _ _ _ rfl hfinal
      exact ⟨[b], _, names', more', .cons hb .nil, rfl, hrest⟩
    | cons y xs =>
      rw [List.map_cons, List.map_cons, alternation_cons_cons, List.append_assoc,
        List.cons_append] at hfinal
      obtain ⟨b, names', more', hb, hrest⟩ := hx _ _ _ _ rfl hfinal
      have hbranch :
          steps (more' + 1)
              ⟨{ ignoreCase }, frames, ⟨branches, [⟨some b.pattern, b.height + 1⟩]⟩, names'⟩
              ('|' :: (alternation ((y :: xs).map source) ++ tail)) =
          steps more' ⟨{ ignoreCase }, frames, ⟨⟨b.pattern, b.height + 1⟩ :: branches, []⟩, names'⟩
            (alternation ((y :: xs).map source) ++ tail) := rfl
      obtain ⟨bs, level, names', more', hbs, hlevel, hrest⟩ :=
        ih (List.cons_ne_nil y xs) (fun z hz => h z (List.mem_cons_of_mem x hz))
          (hbranch.symm.trans (steps_mono hrest (Nat.le_succ more')))
      refine ⟨b :: bs, level, names', more', .cons hb hbs, ?_, hrest⟩
      rw [hlevel, List.map_cons, List.reverse_cons, List.append_assoc]
      rfl

/-- Texts that stay inside of their parentheses, tried in turn. -/
lemma steps_alternation (hne : xs ≠ []) (h : ∀ x ∈ xs, Encloses ignoreCase (P x) (source x))
    (hfinal : steps more ⟨{ ignoreCase }, frames, {}, names⟩
      (alternation (xs.map source) ++ tail) = some final) :
    ∃ bs level names' more', List.Forall₂ P xs bs ∧ level.whole = Branch.joined bs ∧
      steps more' ⟨{ ignoreCase }, frames, level, names'⟩ tail = some final := by
  obtain ⟨bs, level, names', more', hbs, hlevel, hrest⟩ := steps_branches hne h hfinal
  refine ⟨bs, level, names', more', hbs, ?_, hrest⟩
  rw [List.append_nil] at hlevel
  simp [Level.whole, hlevel, Branch.joined, Function.comp_def]

end Alternation

end Read
end BlockHue.Pattern
