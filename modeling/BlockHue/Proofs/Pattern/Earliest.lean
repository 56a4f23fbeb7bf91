import BlockHue.Proofs.Pattern.Ahead

/-! A search finds the earliest match. What matches at a place depends on the place alone, and a
search goes from place to place up to the first one where the pattern matches. So a match is found
again from every place up to its start, and where nothing was found nothing is found later. -/
namespace BlockHue
namespace Pattern

/-- A pattern that can start in front of the text only has no thread elsewhere. -/
lemma threads_anchored {p : Pattern} (hp : p.anchored = true) {t : Thread}
    (ht : t.place.before.isSome = true) :
    p.threads t = [] := by
  have hnone : t.place.before.isNone = false := by simpa using ht
  fun_induction anchored p with
  | case1 => simp [threads, Look.holds, hnone]
  | case2 p q ih => simp [threads, ih hp, Threads.distinct, Threads.distinctFrom]
  | case3 p q ihp ihq =>
    rw [Bool.and_eq_true] at hp
    simp [threads, ihp hp.1, ihq hp.2]
  | case4 name p ih => simp [threads, ih hp]
  | case5 => contradiction

variable {p : Pattern} {place : Place} {m : Match}

lemma search?_of_matchAt? (h : p.matchAt? place = some m) : p.search? place = some m := by
  unfold search?
  split
  · exact h
  · unfold searchFrom?
    rw [h]

/-- Where a pattern does not match, the search goes on with the next character. -/
lemma search?_next (h : p.matchAt? place = none) (hend : place.atEnd = false) :
    p.search? place = p.search? place.next := by
  obtain ⟨c, cs, hrest⟩ : ∃ c cs, place.rest = c :: cs :=
    List.exists_cons_of_ne_nil (by simpa [Place.atEnd] using hend)
  unfold search?
  split
  next hanchored =>
    have hnext : p.threads { place := place.next } = [] :=
      threads_anchored hanchored (by simp [Place.next, hrest])
    rw [h, matchAt?_eq, hnext]
    rfl
  next =>
    rcases place with ⟨before, rest, offset⟩
    obtain rfl : rest = c :: cs := hrest
    simp only [Place.next]
    rw [searchFrom?.eq_def, h]

lemma search?_atEnd (h : p.matchAt? place = none) (hend : place.atEnd = true) :
    p.search? place = none := by
  have hrest : place.rest = [] := by simpa [Place.atEnd] using hend
  unfold search?
  split
  · exact h
  · rcases place with ⟨before, rest, offset⟩
    obtain rfl : rest = [] := hrest
    rw [searchFrom?.eq_def, h]

/-- Nothing matches in front of the match that a search finds, and nothing at all if
it finds none. -/
lemma matchAt?_of_search? {place q : Place} (hq : place.Ahead q)
    (hfirst : ∀ m ∈ p.search? place, q.offset < m.start.offset) :
    p.matchAt? q = none := by
  cases hhere : p.matchAt? place with
  | some m =>
    have hlt := hfirst m (search?_of_matchAt? hhere)
    have hle := hq.offset_le
    rw [(matchAt?_ahead hhere).1] at hlt
    omega
  | none =>
    rcases hq.eq_or_next with rfl | ⟨hend, hnext⟩
    · exact hhere
    · rw [search?_next hhere hend] at hfirst
      exact matchAt?_of_search? hnext hfirst
termination_by place.rest.length
decreasing_by exact Place.length_next_lt hend

lemma search?_eq_none_iff : p.search? place = none ↔ ∀ q, place.Ahead q → p.matchAt? q = none := by
  refine ⟨fun h q hq => matchAt?_of_search? hq (by simp [h]), fun h => ?_⟩
  rw [Option.eq_none_iff_forall_ne_some]
  intro m hm
  obtain ⟨hahead, hmatch⟩ := search?_spec hm
  rw [h m.start hahead] at hmatch
  contradiction

/-- A search finds the match that starts first at or behind its place. -/
lemma search?_eq_some_iff :
    p.search? place = some m ↔ place.Ahead m.start ∧ p.matchAt? m.start = some m ∧
    ∀ q, place.Ahead q → q.offset < m.start.offset → p.matchAt? q = none := by
  constructor
  · intro h
    obtain ⟨hahead, hmatch⟩ := search?_spec h
    exact ⟨hahead, hmatch, fun q hq hlt => matchAt?_of_search? hq (by simpa [h] using hlt)⟩
  · rintro ⟨hahead, hmatch, hfirst⟩
    cases hsearch : p.search? place with
    | none =>
      rw [search?_eq_none_iff.mp hsearch m.start hahead] at hmatch
      contradiction
    | some n =>
      obtain ⟨hahead', hmatch'⟩ := search?_spec hsearch
      have hstart : n.start = m.start := by
        apply hahead.eq_of_offset_eq hahead'
        rcases Nat.lt_trichotomy m.start.offset n.start.offset with hlt | heq | hlt
        · rw [matchAt?_of_search? hahead (by simpa [hsearch] using hlt)] at hmatch
          contradiction
        · exact heq
        · rw [hfirst n.start hahead' hlt] at hmatch'
          contradiction
      rw [hstart, hmatch] at hmatch'
      exact hmatch'.symm

/-- From every place up to the start of a match the search finds that match. -/
lemma search?_of_earlier {earlier : Place} (h : p.search? earlier = some m)
    (hplace : earlier.Ahead place) (hle : place.offset ≤ m.start.offset) :
    p.search? place = some m := by
  obtain ⟨hahead, hmatch, hfirst⟩ := search?_eq_some_iff.mp h
  exact search?_eq_some_iff.mpr
    ⟨hplace.of_offset_le hahead hle, hmatch, fun q hq => hfirst q (hplace.trans hq)⟩

/-- Where a search has found nothing, a later one finds nothing. -/
lemma search?_eq_none_of_earlier {earlier : Place} (h : p.search? earlier = none)
    (hplace : earlier.Ahead place) :
    p.search? place = none :=
  search?_eq_none_iff.mpr fun q hq => search?_eq_none_iff.mp h q (hplace.trans hq)

end Pattern
end BlockHue
