import BlockHue.Scan
import BlockHue.Proofs.Depth
import BlockHue.Proofs.Keyword
import BlockHue.Proofs.Region

/-! The token stream of a text. The stream is in order, keywords of the stream do not overlap, and
its markers are those of the regions, one pair after the other. -/
namespace BlockHue
namespace Token

lemma before_iff {a b : Token} :
    a.before b = true ↔ a.start < b.start ∨ a.start = b.start ∧
      a.category.rank ≤ b.category.rank := by
  simp [before]

lemma before_trans (a b c : Token) (hab : a.before b = true) (hbc : b.before c = true) :
    a.before c = true := by
  rw [before_iff] at *
  omega

lemma before_total (a b : Token) : (a.before b || b.before a) = true := by
  rw [Bool.or_eq_true, before_iff, before_iff]
  omega

lemma sort_pairwise (ts : List Token) : (sort ts).Pairwise fun a b => a.before b = true :=
  List.pairwise_mergeSort before_trans before_total ts

lemma sort_perm (ts : List Token) : (sort ts).Perm ts := List.mergeSort_perm ts before

/-- Tokens picked out of a list stay in their order if they are in order already. -/
lemma filter_sort {ts us : List Token} {q : Token → Bool} (hfilter : ts.filter q = us)
    (hus : us.Pairwise fun a b => a.before b = true) : (sort ts).filter q = us := by
  have hsub : us.Sublist (sort ts) :=
    List.sublist_mergeSort before_trans before_total hus (hfilter ▸ List.filter_sublist)
  have hq : us.filter q = us := by rw [← hfilter, List.filter_filter]; simp
  have hlen : us.length = ((sort ts).filter q).length := by
    rw [← hfilter]
    exact ((sort_perm ts).filter q).length_eq.symm
  exact ((hq ▸ hsub.filter q).eq_of_length hlen).symm

end Token

namespace Language

lemma dropCovered_other {t : Token} (hk : t.category.isKeyword = false) (free : Nat)
    (ts : List Token) :
    dropCovered free (t :: ts) = t :: dropCovered free ts := by
  simp [dropCovered, hk]

lemma dropCovered_covered {free : Nat} {t : Token} (hk : t.category.isKeyword = true)
    (h : t.start < free) (ts : List Token) : dropCovered free (t :: ts) = dropCovered free ts := by
  simp [dropCovered, hk, h]

lemma dropCovered_free {free : Nat} {t : Token} (hk : t.category.isKeyword = true)
    (h : ¬ t.start < free) (ts : List Token) :
    dropCovered free (t :: ts) = t :: dropCovered t.stop ts := by
  simp [dropCovered, hk, h]

lemma dropCovered_sublist (free : Nat) (ts : List Token) : (dropCovered free ts).Sublist ts := by
  induction ts generalizing free with
  | nil => exact List.Sublist.refl _
  | cons t ts ih =>
    unfold dropCovered
    split
    · exact (ih free).cons_cons t
    · split
      · exact (ih free).cons t
      · exact (ih t.stop).cons_cons t

/-- No token but a keyword is dropped. -/
lemma filter_dropCovered {q : Token → Bool} (hq : ∀ t, q t = true → t.category.isKeyword = false)
    (free : Nat) (ts : List Token) : (dropCovered free ts).filter q = ts.filter q := by
  induction ts generalizing free with
  | nil => rfl
  | cons t ts ih =>
    unfold dropCovered
    split
    · simp only [List.filter_cons, ih]
    next hk =>
      have hnot : q t = false := by
        by_contra h
        simp [hq t (by simpa using h)] at hk
      split <;> simp [hnot, ih]

/-- Each keyword that is kept starts at or behind `free` and behind the keywords before it. -/
lemma keywords_dropCovered (free : Nat) (ts : List Token) :
    (∀ t ∈ (dropCovered free ts).filter (·.category.isKeyword), free ≤ t.start) ∧
      ((dropCovered free ts).filter (·.category.isKeyword)).Pairwise fun a b =>
        a.stop ≤ b.start := by
  induction ts generalizing free with
  | nil => simp [dropCovered]
  | cons t ts ih =>
    unfold dropCovered
    split
    next hk =>
      have hk : t.category.isKeyword = false := by simpa using hk
      simpa only [List.filter_cons, hk, Bool.false_eq_true, if_false] using ih free
    next hk =>
      have hk : t.category.isKeyword = true := by simpa using hk
      split
      · exact ih free
      next hfree =>
        obtain ⟨hle, hpairs⟩ := ih t.stop
        simp only [List.filter_cons, hk, if_true, List.pairwise_cons]
        refine ⟨?_, hle, hpairs⟩
        intro u hu
        rcases List.mem_cons.mp hu with rfl | hu
        · omega
        · have hu' := hle u hu
          have hstop : t.stop = t.start + t.length := rfl
          omega

variable {l : Language} {text : List Char}

lemma isBracket_of_mem_comprehensions {b : Comprehensions} {t : Token} (h : t ∈ b.tokens text) :
    t.category.isBracket = true := by
  rcases List.mem_append.mp h with h | h <;> obtain ⟨m, -, rfl⟩ := List.mem_map.mp h <;> rfl

lemma isMarker_of_mem_regions {r : Regions} {t : Token} (h : t ∈ r.tokens text) :
    t.category.isMarker = true := by
  rw [Regions.tokens_eq] at h
  obtain ⟨m, -, hm⟩ := List.mem_flatMap.mp h
  rcases List.mem_pair.mp hm with rfl | rfl <;> rfl

lemma isKeyword_of_mem_keywords {t : Token} (h : t ∈ l.keywords text) :
    t.category.isKeyword = true := by
  simp only [keywords, keywordTokens, List.mem_append, List.mem_map] at h
  rcases h with (⟨s, -, rfl⟩ | ⟨s, -, rfl⟩) | ⟨s, -, rfl⟩ <;> rfl

lemma found_of_mem_keywordTokens {p : Pattern} {c : Category} {t : Token}
    (h : t ∈ keywordTokens p c text) :
    ∃ front rest, Keyword.Found p text ⟨t.start, t.stop⟩ front rest := by
  obtain ⟨s, hs, rfl⟩ := List.mem_map.mp h
  obtain ⟨front, rest, hfound⟩ := Keyword.found_of_mem_spans hs
  have hlt := hfound.start_lt_stop
  have heq : (⟨s.start, s.start + s.length⟩ : Span) = s := by
    rcases s with ⟨a, b⟩
    simp only [Span.length, Span.mk.injEq, true_and]
    have hab : a < b := hlt
    omega
  refine ⟨front, rest, ?_⟩
  rw [← heq] at hfound
  exact hfound

/-- A keyword is found by one of the keyword patterns. -/
lemma found_of_mem_keywords {t : Token} (h : t ∈ l.keywords text) :
    ∃ p ∈ [l.openKeywords, l.closeKeywords, l.neutralKeywords], ∃ front rest,
      Keyword.Found p text ⟨t.start, t.stop⟩ front rest := by
  simp only [keywords, List.mem_append] at h
  rcases h with (h | h) | h
  · exact ⟨l.openKeywords, by simp, found_of_mem_keywordTokens h⟩
  · exact ⟨l.closeKeywords, by simp, found_of_mem_keywordTokens h⟩
  · exact ⟨l.neutralKeywords, by simp, found_of_mem_keywordTokens h⟩

lemma scan_pairwise (l : Language) (text : List Char) :
    (l.scan text).Pairwise fun a b => a.before b = true := by
  unfold scan
  split
  · exact List.Pairwise.nil
  · exact (Token.sort_pairwise _).sublist (dropCovered_sublist 0 _)

lemma scan_keywords_pairwise (l : Language) (text : List Char) :
    ((l.scan text).filter (·.category.isKeyword)).Pairwise fun a b => a.stop ≤ b.start := by
  unfold scan
  split
  · exact List.Pairwise.nil
  · exact (keywords_dropCovered 0 _).2

/-- All tokens of a text in the order in which they are found. -/
def found (l : Language) (text : List Char) : List Token :=
  l.comprehensions.tokens text ++ l.regions.tokens text ++ l.keywords text

lemma mem_found {t : Token} :
    t ∈ l.found text ↔ t ∈ l.comprehensions.tokens text ∨ t ∈ l.regions.tokens text ∨
      t ∈ l.keywords text := by
  rw [found, List.mem_append, List.mem_append, or_assoc]

lemma mem_brackets_of_mem_found {t : Token} (h : t ∈ l.found text)
    (hb : t.category.isBracket = true) :
    t ∈ l.comprehensions.tokens text := by
  rcases mem_found.mp h with h | h | h
  · exact h
  · rw [Category.not_isBracket_of_isMarker (isMarker_of_mem_regions h)] at hb
    contradiction
  · rw [Category.not_isBracket_of_isKeyword (isKeyword_of_mem_keywords h)] at hb
    contradiction

lemma mem_regions_of_mem_found {t : Token} (h : t ∈ l.found text)
    (hm : t.category.isMarker = true) :
    t ∈ l.regions.tokens text := by
  rcases mem_found.mp h with h | h | h
  · rw [Category.not_isMarker_of_isBracket (isBracket_of_mem_comprehensions h)] at hm
    contradiction
  · exact h
  · rw [Category.not_isMarker_of_isKeyword (isKeyword_of_mem_keywords h)] at hm
    contradiction

lemma mem_keywords_of_mem_found {t : Token} (h : t ∈ l.found text)
    (hk : t.category.isKeyword = true) :
    t ∈ l.keywords text := by
  rcases mem_found.mp h with h | h | h
  · rw [Category.not_isKeyword_of_isBracket (isBracket_of_mem_comprehensions h)] at hk
    contradiction
  · rw [Category.not_isKeyword_of_isMarker (isMarker_of_mem_regions h)] at hk
    contradiction
  · exact h

lemma scan_eq (hblank : Text.isBlank text = false) :
    l.scan text = dropCovered 0 (Token.sort (l.found text)) := by
  rw [scan, if_neg (by simp [hblank])]
  rfl

lemma mem_found_of_mem_scan {t : Token} (h : t ∈ l.scan text) : t ∈ l.found text := by
  unfold scan at h
  split at h
  · contradiction
  · exact (Token.sort_perm _).subset ((dropCovered_sublist 0 _).subset h)

lemma mem_keywords_of_mem_scan {t : Token} (h : t ∈ l.scan text)
    (hk : t.category.isKeyword = true) :
    t ∈ l.keywords text := mem_keywords_of_mem_found (mem_found_of_mem_scan h) hk

lemma regions_tokens_pairwise (r : Regions) (text : List Char) :
    (r.tokens text).Pairwise fun a b => a.before b = true := by
  rw [Regions.tokens_eq, List.pairwise_flatMap]
  constructor
  · intro m hm
    obtain ⟨front, inside, back, hmarked⟩ := Regions.find_marked hm
    have hle := hmarked.first_le_last
    rw [List.pairwise_pair, Token.before_iff]
    rcases hle.lt_or_eq with h | h
    · exact .inl h
    · exact .inr ⟨h, (by decide : Category.rank .openIgnore ≤ Category.rank .closeIgnore)⟩
  · apply (Regions.find_pairwise r text).imp_of_mem
    intro a b ha hb hab x hx y hy
    obtain ⟨_, _, _, hma⟩ := Regions.find_marked ha
    obtain ⟨_, _, _, hmb⟩ := Regions.find_marked hb
    have ha1 := hma.first_le_last
    have ha2 := hma.last_lt_stop
    have hb1 := hmb.first_le_last
    rw [Match.firstMarker_start] at hb1
    rw [Token.before_iff]
    left
    have hax : x.start ≤ a.lastMarker.start := by
      rcases List.mem_pair.mp hx with rfl | rfl
      · exact ha1
      · exact le_rfl
    have hby : b.start.offset ≤ y.start := by
      rcases List.mem_pair.mp hy with rfl | rfl
      · exact le_rfl
      · exact hb1
    omega

/-- The markers of the stream are those of the regions, the two of a region after those of the
region before it. -/
lemma scan_markers (h : Text.isBlank text = false) :
    (l.scan text).filter (·.category.isMarker) =
      (l.regions.find text).flatMap fun m => [m.firstMarker, m.lastMarker] := by
  have hbracket : (l.comprehensions.tokens text).filter (·.category.isMarker) = [] := by
    rw [List.filter_eq_nil_iff]
    intro t ht
    simp [Category.not_isMarker_of_isBracket (isBracket_of_mem_comprehensions ht)]
  have hkeyword : (l.keywords text).filter (·.category.isMarker) = [] := by
    rw [List.filter_eq_nil_iff]
    intro t ht
    simp [Category.not_isMarker_of_isKeyword (isKeyword_of_mem_keywords ht)]
  have hregion : (l.regions.tokens text).filter (·.category.isMarker) = l.regions.tokens text :=
    List.filter_eq_self.mpr fun t ht => isMarker_of_mem_regions ht
  have hall : (l.found text).filter (·.category.isMarker) = l.regions.tokens text := by
    rw [found, List.filter_append, List.filter_append, hbracket, hregion, hkeyword, List.nil_append,
      List.append_nil]
  rw [scan_eq h, filter_dropCovered fun _ =>
    Category.not_isKeyword_of_isMarker, ← Regions.tokens_eq]
  exact Token.filter_sort hall (regions_tokens_pairwise _ _)

/-- The assignments of a text are spans of keywords of its stream, in order and apart. -/
lemma classify_scan (l : Language) (text : List Char) {slots : Nat} (h : 0 < slots) :
    ∃ as, classify (l.scan text) slots = .ok as ∧
      (∀ a ∈ as, ∃ t ∈ l.scan text, t.category.isKeyword = true ∧ t.start = a.start ∧
        t.length = a.length) ∧
      as.Pairwise fun a b => a.stop ≤ b.start := by
  have hsub := Depth.run_sublist {} (l.scan text)
  refine ⟨_, classify_eq h, ?_, ?_⟩
  · intro a ha
    obtain ⟨u, hu, rfl⟩ := List.mem_map.mp ha
    obtain ⟨hmem, hk⟩ := List.mem_filter.mp (hsub.subset (List.mem_map_of_mem hu))
    exact ⟨u.1, hmem, hk, rfl, rfl⟩
  · have hpairs := (scan_keywords_pairwise l text).sublist hsub
    rw [List.pairwise_map] at hpairs ⊢
    exact hpairs

end Language
end BlockHue
