import BlockHue.Proofs.Boundary

/-! The patterns of a profile that is accepted. Patterns are not looked at one by one: those of one
kind are put together and read as one, and the closing pattern of a line region is not read at all.
Main statement: where no pattern of a kind leaks out of its parentheses, each of them can be read by
itself; so a pattern that can not be read gets a profile refused unless it leaks, another of its
kind does, or it closes a line region. -/
namespace BlockHue
namespace Pattern.Read

variable [Dialect] {α : Type} {ignoreCase : Bool} {xs : List α} {source : α → List Char}

/-- Patterns are put together with `wrap` so that each is read as a part of the whole. -/
def Joins (ignoreCase : Bool) (wrap : List Char → List Char) : Prop :=
  ∀ (α : Type) (P : α → Branch → Prop) (source : α →
    List Char) (xs : List α) (more : Nat) (final : State), xs ≠ [] →
    (∀ x ∈ xs, Encloses ignoreCase (P x) (source x)) →
    steps more (start ignoreCase) (wrap (alternation (xs.map source))) = some final →
    ∃ bs, List.Forall₂ P xs bs ∧ (Branch.joined bs).height ≤ final.level.whole.height

lemma joins_keyword (ignoreCase : Bool) : Joins ignoreCase Keyword.wrap := by
  intro α P source xs more final hne h hfinal
  obtain ⟨bs, hbs, hheight, -⟩ := Keyword.steps_wrap hne h hfinal
  exact ⟨bs, hbs, hheight⟩

lemma joins_id (ignoreCase : Bool) : Joins ignoreCase id := by
  intro α P source xs more final hne h hfinal
  rw [id, ← List.append_nil (alternation _)] at hfinal
  obtain ⟨bs, level, names, more', hbs, hlevel, hrest⟩ := steps_alternation hne h hfinal
  have hend := steps_mono hrest (Nat.le_succ more')
  obtain rfl := Option.some.inj hend
  exact ⟨bs, hbs, hlevel ▸ Nat.le_refl _⟩

/-- Patterns that are tried in turn are read as one item of a group around them. -/
lemma encloses_alternation {P : α → Branch → Prop} (hne : xs ≠ [])
    (h : ∀ x ∈ xs, Encloses ignoreCase (P x) (source x)) :
    Encloses ignoreCase (fun b => ∃ bs, List.Forall₂ P xs bs ∧ b = Branch.joined bs)
      (alternation (xs.map source)) := by
  apply encloses_of_steps
  intro frames names more tail final hfinal
  obtain ⟨bs, level, names', more', hbs, hlevel, hrest⟩ := steps_alternation hne h hfinal
  exact ⟨level, names', more', ⟨bs, hbs, hlevel⟩, hrest⟩

lemma joins_line (ignoreCase : Bool) : Joins ignoreCase Regions.lineWrap := by
  intro α P source xs more final hne h hfinal
  have htext : Regions.lineWrap (alternation (xs.map source)) =
      "(?:".toList ++ alternation (xs.map source) ++ ")".toList ++ ".*".toList := by
    rw [List.append_assoc _ ")".toList]
    rfl
  rw [htext] at hfinal
  obtain ⟨_, names, more', ⟨bs, hbs, rfl⟩, hrest⟩ := encloses_alternation hne h _ _ _ _ rfl hfinal
  have hend := steps_mono hrest (Nat.le_add_right more' 3)
  obtain rfl := Option.some.inj hend
  exact ⟨bs, hbs,
    (Nat.le_succ _).trans (Level.height_le_whole _ (List.mem_cons_of_mem _ List.mem_cons_self))⟩

/-- Each of several texts is read by itself, as something no higher than `b`. -/
def Holds (ignoreCase : Bool) (ps : List String) (b : Branch) : Prop :=
  ∀ p ∈ ps, ∃ a, ReadAs ignoreCase p.toList a ∧ a.height ≤ b.height

lemma encloses_holds {p : String} (h : ¬ Leaks ignoreCase p.toList) :
    Encloses ignoreCase (Holds ignoreCase [p]) p.toList := by
  refine (encloses_of_not_leaks h).imp fun b hb => ?_
  rintro _ hmem
  rw [List.mem_singleton.mp hmem]
  exact ⟨b, hb, Nat.le_refl _⟩

/-- Both patterns of a block region are parts of what the region is read as. -/
lemma encloses_blockSource {r : Region} (hopening : ¬ Leaks ignoreCase r.opening.toList)
    (hclosing : ¬ Leaks ignoreCase (r.closing.getD r.opening).toList) :
    Encloses ignoreCase (Holds ignoreCase [r.opening, r.closing.getD r.opening])
      (Regions.blockSource r) := by
  apply encloses_of_steps
  intro frames names more tail final hfinal
  have htext : Regions.blockSource r ++ ')' :: tail = "(?:".toList ++ r.opening.toList ++
      ")".toList ++
        ("(?s:.*?)".toList ++ ("(?:".toList ++ (r.closing.getD r.opening).toList ++ ")".toList ++
        ')' :: tail)) := by
    delta Regions.blockSource
    simp only [List.append_assoc]
    rfl
  rw [htext] at hfinal
  obtain ⟨a, names', more', ha, hrest⟩ := encloses_of_not_leaks hopening _ _ _ _ rfl hfinal
  have hbody (rest : List Char) :
      steps (more' + 4) ⟨{ ignoreCase }, frames, ⟨[], [⟨some a.pattern, a.height + 1⟩]⟩, names'⟩
      ("(?s:.*?)".toList ++ rest) = steps more' ⟨{ ignoreCase }, frames,
        ⟨[], [⟨some (.run .any 0 none false), 2⟩, ⟨some a.pattern, a.height + 1⟩]⟩, names'⟩ rest :=
    rfl
  obtain ⟨b, names'', more'', hb, hrest⟩ :=
    encloses_of_not_leaks hclosing _ _ _ _ rfl
      ((hbody _).symm.trans (steps_mono hrest (Nat.le_add_right more' 4)))
  refine ⟨_, names'', more'', ?_, hrest⟩
  rintro _ hmem
  rcases List.mem_pair.mp hmem with rfl | rfl
  · refine ⟨a, ha, (Nat.le_succ _).trans (Level.height_le_whole a.pattern ?_)⟩
    exact List.mem_cons_of_mem _ (List.mem_cons_of_mem _ List.mem_cons_self)
  · exact ⟨b, hb, (Nat.le_succ _).trans (Level.height_le_whole b.pattern List.mem_cons_self)⟩

/-- Where patterns made of several texts are read as one, each of the texts is a
pattern by itself. -/
lemma Joins.isSome_parse? {caseSensitive : Bool} {wrap : List Char → List Char}
    (hwrap : Joins (!caseSensitive) wrap) {parts : α → List String}
    (h : ∀ x ∈ xs, Encloses (!caseSensitive) (Holds (!caseSensitive) (parts x)) (source x))
    {q : Pattern} (hq : readAll? caseSensitive wrap (xs.map source) = some q) :
    ∀ p ∈ xs.flatMap parts, (parse? (!caseSensitive) p.toList).isSome = true := by
  intro p hp
  obtain ⟨x, hx, hp⟩ := List.mem_flatMap.mp hp
  have hne : xs ≠ [] := List.ne_nil_of_mem hx
  rw [readAll?, if_neg (by simpa using hne)] at hq
  obtain ⟨final, hfinal, -, hheight, -⟩ := parse?_eq_some_iff.mp (read?_eq_some_iff.mp hq).2
  obtain ⟨bs, hbs, hjoined⟩ := hwrap α _ source xs _ final hne h hfinal
  obtain ⟨i, hi, rfl⟩ := List.mem_iff_getElem.mp hx
  have hi' : i < bs.length := hbs.length_eq ▸ hi
  obtain ⟨a, ha, hab⟩ := hbs.get hi hi' p hp
  have hall := hab.trans ((Branch.height_le_joined (List.getElem_mem hi')).trans hjoined)
  rw [parse?_of_readAs ha (hall.trans hheight)]
  rfl

/-- Where patterns that do not leak are read as one, each is a pattern by itself. -/
lemma Joins.isSome_of_not_leaks {caseSensitive : Bool} {wrap : List Char → List Char}
    (hwrap : Joins (!caseSensitive) wrap) {ps : List String} {q : Pattern}
    (hq : readAll? caseSensitive wrap (ps.map String.toList) = some q)
    (h : ∀ p ∈ ps, ¬ Leaks (!caseSensitive) p.toList) :
    ∀ p ∈ ps, (parse? (!caseSensitive) p.toList).isSome = true := by
  have hparts := hwrap.isSome_parse? (fun p hp => encloses_holds (h p hp)) hq
  rwa [List.flatMap_singleton'] at hparts

end Pattern.Read

/-- A region with what is read of it: the closing pattern of a line region is not. -/
def Region.asRead (r : Region) : Region := if r.singleLine then { r with closing := none } else r

/-- The patterns of a profile that are read, those that are read together side by side. -/
def Profile.patterns (p : Profile) : List (List String) :=
  [p.openKeywords, p.closeKeywords, p.neutralKeywords,
    (p.regions.filter (!·.singleLine)).flatMap fun r => [r.opening, r.closing.getD r.opening],
    (p.regions.filter (·.singleLine)).map (·.opening),
    p.brackets.map (·.opening), p.brackets.map (·.closing)]

namespace Regions

lemma map_filter_asRead {keep : Region → Bool} {source : Region → List Char}
    (hkeep : ∀ r, keep r.asRead = keep r)
    (hsource : ∀ r, keep r = true → source r.asRead = source r) (regions : List Region) :
    ((regions.map Region.asRead).filter keep).map source = (regions.filter keep).map source := by
  induction regions with
  | nil => rfl
  | cons r regions ih =>
    cases hr : keep r
    · simpa [hkeep, hr] using ih
    · simpa [hkeep, hr, hsource r hr] using ih

lemma compile?_asRead [Dialect] (caseSensitive : Bool) (regions : List Region) :
    compile? caseSensitive (regions.map Region.asRead) = compile? caseSensitive regions := by
  have hline (r : Region) : r.asRead.singleLine = r.singleLine := by
    unfold Region.asRead
    split <;> rfl
  have hopening (r : Region) : r.asRead.opening = r.opening := by
    unfold Region.asRead
    split <;> rfl
  have hblock (r : Region) (hr : (!r.singleLine) = true) :
      blockSource r.asRead = blockSource r := by
    have hfalse : r.singleLine = false := by simpa using hr
    simp [Region.asRead, hfalse]
  rw [compile?, map_filter_asRead (fun r => by rw [hline]) hblock,
    map_filter_asRead hline fun r _ => by rw [hopening], compile?]

end Regions

namespace Language
open Pattern Pattern.Read

variable {id : String} {p : Profile} {l : Language}

lemma compile_congr_regions [Dialect] {regions : List Region}
    (h : regions.map Region.asRead = p.regions.map Region.asRead) :
    compile id { p with regions } = compile id p := by
  have hregions : Regions.compile? p.caseSensitive regions =
      Regions.compile? p.caseSensitive p.regions := by
    rw [← Regions.compile?_asRead, h, Regions.compile?_asRead]
  simp only [compile, compile?, hregions]

/-- Where no pattern of those that are read together leaks, each of them can be read by itself if
the profile is accepted. What closes a line region has no part in this. -/
theorem patterns_readable_of_compile [Dialect] (h : compile id p = .ok l) :
    (∀ ps ∈ p.patterns, (∀ k ∈ ps, ¬ Leaks (!p.caseSensitive) k.toList) →
        ∀ k ∈ ps, (parse? (!p.caseSensitive) k.toList).isSome = true) ∧
      ∀ regions, regions.map Region.asRead = p.regions.map Region.asRead →
        compile id { p with regions } = .ok l := by
  refine ⟨?_, fun regions hregions => (compile_congr_regions hregions).trans h⟩
  have hcompile := compile_eq_ok_iff.mp h
  simp only [compile?, Option.bind_eq_bind, Option.bind_eq_some_iff] at hcompile
  obtain ⟨_, hopen, _, hclose, _, hneutral, _, hregions, _, hbrackets, -⟩ := hcompile
  simp only [Regions.compile?, Option.bind_eq_bind, Option.bind_eq_some_iff] at hregions
  obtain ⟨_, hblock, _, hline, -⟩ := hregions
  simp only [Comprehensions.compile?, Option.bind_eq_bind, Option.bind_eq_some_iff] at hbrackets
  obtain ⟨_, hopening, _, hclosing, -⟩ := hbrackets
  intro ps hps hleaks
  simp only [Profile.patterns, List.mem_cons, List.not_mem_nil, or_false] at hps
  rcases hps with rfl | rfl | rfl | rfl | rfl | rfl | rfl
  · exact (joins_keyword _).isSome_of_not_leaks hopen hleaks
  · exact (joins_keyword _).isSome_of_not_leaks hclose hleaks
  · exact (joins_keyword _).isSome_of_not_leaks hneutral hleaks
  · refine (joins_id _).isSome_parse? (fun r hr => ?_) hblock
    have hmem (k : String) (hk : k ∈ [r.opening, r.closing.getD r.opening]) :
        ¬ Leaks (!p.caseSensitive) k.toList :=
      hleaks k (List.mem_flatMap.mpr ⟨r, hr, hk⟩)
    exact encloses_blockSource (hmem _ List.mem_cons_self)
      (hmem _ (List.mem_cons_of_mem _ List.mem_cons_self))
  · exact (joins_line _).isSome_of_not_leaks (by rwa [List.map_map]) hleaks
  · exact (joins_id _).isSome_of_not_leaks (by rwa [List.map_map]) hleaks
  · exact (joins_id _).isSome_of_not_leaks (by rwa [List.map_map]) hleaks

open scoped Dialect.Standard

/-- A profile with a keyword that is a pattern only between parentheses. -/
def completed : Profile where
  openKeywords := ["a)|(?:b"]

/-- A keyword that can not be read by itself does not get its profile refused. -/
theorem unreadable_keyword_accepted :
    (∃ l, compile "completed" completed = .ok l) ∧ ∀ k ∈ completed.openKeywords,
      parse? true k.toList = none := by
  have hsome : (compile? "completed" completed).isSome = true := by decide +kernel
  obtain ⟨l, hl⟩ := Option.isSome_iff_exists.mp hsome
  exact ⟨⟨l, compile_eq_ok_iff.mpr hl⟩, by decide +kernel⟩

/-- A profile with patterns of every kind. The closing pattern of its line region
can not be read. -/
def mixed : Profile where
  openKeywords := ["if|unless", "do\\s+while"]
  closeKeywords := ["end(?: if)?"]
  neutralKeywords := ["else"]
  regions := [.block "/\\*" "\\*/", ⟨"#", some "(", true⟩]
  brackets := [⟨"\\[", "\\]"⟩]

theorem mixed_patterns_readable :
    ∃ l, compile "mixed" mixed = .ok l ∧
      (∀ ps ∈ mixed.patterns, ∀ k ∈ ps, (parse? true k.toList).isSome = true) ∧
      compile "mixed" { mixed with regions := [.block "/\\*" "\\*/", .line "#"] } = .ok l := by
  have hsome : (compile? "mixed" mixed).isSome = true := by decide +kernel
  have hwhole : ∀ ps ∈ mixed.patterns, ∀ k ∈ ps, Whole true k.toList := by
    unfold Whole
    decide +kernel
  obtain ⟨l, hl⟩ := Option.isSome_iff_exists.mp hsome
  have hcompile := compile_eq_ok_iff.mpr hl
  obtain ⟨hreadable, hregions⟩ := patterns_readable_of_compile hcompile
  exact ⟨l, hcompile, fun ps hps =>
    hreadable ps hps fun k hk => (hwhole ps hps k hk).not_leaks, hregions _ rfl⟩

end Language
end BlockHue
