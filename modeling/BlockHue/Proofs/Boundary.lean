import BlockHue.Pattern.Standard
import BlockHue.Proofs.Kept
import BlockHue.Proofs.Pattern.Read.Alternation
import BlockHue.Proofs.Registry

/-! The boundaries of keywords. The text of a profile's keyword is put between parentheses, so one
that closes them itself escapes the condition on what follows a keyword. Main statement: a keyword
of the stream starts in front of the text or behind white space, and where the keywords of its
category are patterns of their own, white space or the end of the text follows it. -/
namespace BlockHue
namespace Keyword
open Pattern Pattern.Read

/-- The group around the keywords, as long as it is open. -/
def openFrame (ignoreCase : Bool) : Frame :=
  ⟨some groupName, { ignoreCase }, { items := [⟨some (.look .textStart), 0⟩] }⟩

lemma steps_openFrame [Dialect] (ignoreCase : Bool) (fuel : Nat) (alternatives : List Char) :
    steps (fuel + 2) (start ignoreCase) (wrap alternatives) =
      steps fuel ⟨{ ignoreCase }, [openFrame ignoreCase], {}, [groupName]⟩
        (alternatives ++ ")(?:\\s|\\z)".toList) := by
  have hwrap : wrap alternatives = "\\A(?P<kw>".toList ++ (alternatives ++ ")(?:\\s|\\z)".toList) :=
    List.append_assoc _ _ _
  rw [hwrap]
  rfl

lemma steps_closeFrame [Dialect] (ignoreCase : Bool) (fuel : Nat) (level : Level)
    (names : List String) :
    ∃ st, steps (fuel + 7) ⟨{ ignoreCase }, [openFrame ignoreCase], level, names⟩
      ")(?:\\s|\\z)".toList = some st ∧
      st.level.whole.pattern = bounded level.whole.pattern ∧
        level.whole.height ≤ st.level.whole.height := by
  refine ⟨_, rfl, rfl,
    (Nat.le_succ _).trans (Level.height_le_whole (.group groupName level.whole.pattern) ?_)⟩
  exact List.mem_cons_of_mem _ List.mem_cons_self

/-- Keywords that stay inside of their parentheses are read as a bounded choice. -/
lemma steps_wrap [Dialect] {α : Type} {ignoreCase : Bool} {P : α → Branch → Prop}
    {source : α → List Char} {xs : List α} (hne : xs ≠ [])
    (h : ∀ x ∈ xs, Encloses ignoreCase (P x) (source x)) {more : Nat} {final : State}
    (hfinal : steps more (start ignoreCase) (wrap (alternation (xs.map source))) = some final) :
    ∃ bs, List.Forall₂ P xs bs ∧ (Branch.joined bs).height ≤ final.level.whole.height ∧
      final.level.whole.pattern = bounded (choice (bs.map Branch.pattern)) := by
  have hmore := steps_mono hfinal (Nat.le_add_right more 2)
  rw [steps_openFrame] at hmore
  obtain ⟨bs, level, names, more', hbs, hlevel, hrest⟩ := steps_alternation hne h hmore
  obtain ⟨st, hst, hpattern, hheight⟩ := steps_closeFrame ignoreCase more' level names
  have heq := steps_mono hrest (Nat.le_add_right more' 7)
  rw [hst] at heq
  obtain rfl := Option.some.inj heq
  rw [hlevel] at hpattern hheight
  exact ⟨bs, hbs, hheight, hpattern⟩

/-- The pattern of keywords that are patterns of their own is the bounded choice between them. -/
lemma pattern?_eq_bounded [Dialect] {caseSensitive : Bool} {keywords : List String} {p : Pattern}
    (hne : keywords ≠ []) (h : ∀ k ∈ keywords, Whole (!caseSensitive) k.toList)
    (hp : pattern? caseSensitive keywords = some p) :
    ∃ qs, List.Forall₂ (fun k q => parse? (!caseSensitive) k.toList = some q) keywords qs ∧
      p = bounded (choice qs) := by
  rw [pattern?, readAll?, if_neg (by simpa using hne)] at hp
  obtain ⟨final, hfinal, -, -, rfl⟩ := parse?_eq_some_iff.mp (read?_eq_some_iff.mp hp).2
  obtain ⟨bs, hbs, -, hpattern⟩ := steps_wrap hne (fun k hk => (h k hk).encloses) hfinal
  exact ⟨bs.map Branch.pattern, List.forall₂_map_right_iff.mpr hbs, hpattern⟩

lemma pattern?_bounded [Dialect] {caseSensitive : Bool} {keywords : List String} {p : Pattern}
    (h : ∀ k ∈ keywords, Whole (!caseSensitive) k.toList)
    (hp : pattern? caseSensitive keywords = some p) :
    p = .never ∨ ∃ q, p = bounded q := by
  by_cases hne : keywords = []
  · subst hne
    exact .inl (Option.some.inj hp).symm
  · obtain ⟨qs, -, hq⟩ := pattern?_eq_bounded hne h hp
    exact .inr ⟨_, hq⟩

/-- What a bounded pattern finds is followed by white space or the end of the text. -/
lemma lengthAt?_bounded_closed {p : Pattern} {rest : List Char} {n : Nat}
    (h : lengthAt? (bounded p) rest = some n) :
    ∃ w back, rest = w ++ back ∧ n = Text.width w ∧ closed back = true := by
  rw [lengthAt?_bounded] at h
  obtain ⟨u, hu, h⟩ := Option.bind_eq_some_iff.mp h
  obtain ⟨w, hleads⟩ := threads_ahead p (Place.Ahead.refl _) u (List.mem_of_find?_eq_some hu)
  have hclosed := List.find?_some hu
  refine ⟨w, u.place.rest, hleads.rest, ?_, hclosed⟩
  split at h
  · contradiction
  · have hoffset : u.offset = 0 + Text.width w := hleads.offset
    rw [← Option.some.inj h, hoffset, Nat.zero_add]

end Keyword

namespace Language

variable {id : String} {p : Profile} {l : Language} {text : List Char}

lemma pattern?_keywordsOf [Dialect] (h : compile? id p = some l) (c : Category) :
    Keyword.pattern? p.caseSensitive (p.keywordsOf c) = some (l.keywordPattern c) := by
  simp only [compile?, Option.bind_eq_bind, Option.bind_eq_some_iff] at h
  obtain ⟨_, hopen, _, hclose, _, hneutral, _, -, _, -, heq⟩ := h
  obtain rfl := Option.some.inj heq
  cases c
  case openBlock => exact hopen
  case closeBlock => exact hclose
  case neutral => exact hneutral
  all_goals rfl

/-- A keyword of the stream starts in front of the text or behind white space, takes at least one
byte and stays inside the text. Where the keywords of its category are patterns of their own, it
ends at a character boundary and white space or the end of the text follows it. -/
theorem keyword_between_boundaries [Dialect] (h : compile id p = .ok l) {t : Token}
    (ht : t ∈ l.scan text) (hk : t.category.isKeyword = true) :
    t.start < t.stop ∧ t.stop ≤ Text.width text ∧
      ∃ front rest, text = front ++ rest ∧ t.start = Text.width front ∧ Keyword.fresh front = true ∧
        ((∀ k ∈ p.keywordsOf t.category, Pattern.Read.Whole (!p.caseSensitive) k.toList) →
          ∃ w back, rest = w ++ back ∧ t.length = Text.width w ∧ Keyword.closed back = true) := by
  have hmem := mem_keywords_of_mem_scan ht hk
  obtain ⟨front, rest, hfound⟩ :=
    found_of_mem_keywordTokens (mem_keywordTokens_of_mem_keywords hmem)
  refine ⟨hfound.start_lt_stop, hfound.stop_le, front, rest, hfound.text, hfound.start,
    hfound.fresh, fun hwhole => ?_⟩
  obtain ⟨n, hn, hstop⟩ := hfound.stop
  obtain rfl : t.length = n := Nat.add_left_cancel hstop
  rcases Keyword.pattern?_bounded hwhole
    (pattern?_keywordsOf (compile_eq_ok_iff.mp h) t.category) with hnever | ⟨q, hq⟩
  · simp [hnever, Keyword.lengthAt?] at hn
  · rw [hq] at hn
    exact Keyword.lengthAt?_bounded_closed hn

open scoped Dialect.Standard

def unbalanced : Profile where
  openKeywords := ["x))|((?:y"]

/-- A keyword that closes the parentheses around it is found in front of anything. -/
theorem unbalanced_keyword_unbounded :
    ∃ l, compile "unbalanced" unbalanced = .ok l ∧ l.scan "xz".toList = [⟨0, 1, .openBlock⟩] ∧
      ¬ ∃ front w back, "xz".toList = front ++ w ++ back ∧ 0 = Text.width front ∧ 1 = Text.width w ∧
        Keyword.closed back = true := by
  have hmap : (compile? "unbalanced" unbalanced).map (·.scan "xz".toList) =
      some [⟨0, 1, .openBlock⟩] := by
    decide +kernel
  obtain ⟨l, hl, hscan⟩ := Option.map_eq_some_iff.mp hmap
  refine ⟨l, compile_eq_ok_iff.mpr hl, hscan, ?_⟩
  rintro ⟨front, w, back, htext, hfront, hw, hclosed⟩
  have hcut : ['x'] ++ ['z'] = (front ++ w) ++ back := htext
  obtain ⟨-, rfl⟩ := Text.eq_of_width_eq hcut (by rw [Text.width_append, ← hfront, ← hw]; rfl)
  contradiction

/-- A profile whose keywords are patterns with branches and white space. -/
def branching : Profile where
  openKeywords := ["if|unless", "do\\s+while"]
  closeKeywords := ["end(?: if)?"]

theorem branching_keyword_bounded :
    ∃ l, compile "branching" branching = .ok l ∧ ⟨0, 9, .openBlock⟩ ∈ l.scan "do  while x".toList ∧
      (∀ k ∈ branching.openKeywords, Pattern.Read.Whole true k.toList) ∧
      ∃ front w back, "do  while x".toList = front ++ (w ++ back) ∧ 0 = Text.width front ∧
        9 = Text.width w ∧
        Keyword.closed back = true := by
  have hmap : (compile? "branching" branching).map (·.scan "do  while x".toList) =
      some [⟨0, 9, .openBlock⟩] := by
    decide +kernel
  have hwhole : ∀ k ∈ branching.openKeywords, Pattern.Read.Whole true k.toList := by
    unfold Pattern.Read.Whole
    decide +kernel
  obtain ⟨l, hcompile, hscan⟩ := Option.map_eq_some_iff.mp hmap
  have hl := compile_eq_ok_iff.mpr hcompile
  have ht : ⟨0, 9, .openBlock⟩ ∈ l.scan "do  while x".toList := hscan ▸ List.mem_singleton_self _
  obtain ⟨-, -, front, rest, htext, hstart, -, hend⟩ := keyword_between_boundaries hl ht rfl
  obtain ⟨w, back, rfl, hlength, hclosed⟩ := hend hwhole
  exact ⟨l, hl, ht, hwhole, front, w, back, htext, hstart, hlength, hclosed⟩

end Language
end BlockHue
