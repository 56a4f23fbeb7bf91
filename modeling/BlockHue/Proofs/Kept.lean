import BlockHue.Proofs.Pattern.Words
import BlockHue.Proofs.Stream

/-! Which keywords a stream keeps. The keywords of one pattern never overlap, so of the keywords
that the three patterns find one is dropped only for an earlier keyword of another kind that covers
its start. Main statement: the stream is in order, nothing else is dropped, and the assignments are
spans of kept keywords inside the text. -/
namespace BlockHue

namespace Token

def span (t : Token) : Span := ⟨t.start, t.stop⟩

end Token

namespace Assignment

def span (a : Assignment) : Span := ⟨a.start, a.stop⟩

end Assignment

namespace Category

lemma rank_injective : Function.Injective rank := by
  intro c d h
  cases c <;> cases d <;> first | rfl | simp [rank] at h

end Category

/-- The keywords of a category. -/
def Profile.keywordsOf (p : Profile) : Category → List String
  | .openBlock => p.openKeywords
  | .closeBlock => p.closeKeywords
  | .neutral => p.neutralKeywords
  | _ => []

namespace Keyword

/-- From an offset on, keywords start at or behind the offset and the end of the last one, each
behind the one before it. -/
lemma spansFrom_ordered (p : Pattern) (fresh : Bool) (free offset : Nat) (rest : List Char) :
    (∀ s ∈ spansFrom p fresh free offset rest, free ≤ s.start ∧ offset ≤ s.start) ∧
      (spansFrom p fresh free offset rest).Pairwise fun a b => a.stop ≤ b.start := by
  induction rest generalizing fresh free offset with
  | nil => simp [spansFrom]
  | cons c cs ih =>
    simp only [spansFrom]
    split
    next n hn =>
      obtain ⟨hbound, hpairs⟩ := ih (Text.isSpace c) (offset + n) (offset + c.utf8Size)
      split at hn
      next hfree =>
        have hle : free ≤ offset := by
          rw [Bool.and_eq_true, decide_eq_true_eq] at hfree
          exact hfree.2
        refine ⟨?_, List.pairwise_cons.mpr ⟨fun s hs => (hbound s hs).1, hpairs⟩⟩
        intro s hs
        rcases List.mem_cons.mp hs with rfl | hs
        · exact ⟨hle, le_rfl⟩
        · have hs' := hbound s hs
          omega
      next => contradiction
    next =>
      obtain ⟨hbound, hpairs⟩ := ih (Text.isSpace c) free (offset + c.utf8Size)
      refine ⟨fun s hs => ?_, hpairs⟩
      have hs' := hbound s hs
      omega

lemma spans_pairwise (p : Pattern) (text : List Char) :
    (spans p text).Pairwise fun a b => a.stop ≤ b.start :=
  (spansFrom_ordered p true 0 0 text).2

lemma lengthAt?_le {p : Pattern} {rest : List Char} {n : Nat} (h : lengthAt? p rest = some n) :
    n ≤ Text.width rest := by
  simp only [lengthAt?, Option.bind_eq_bind, Option.bind_eq_some_iff] at h
  obtain ⟨m, hm, span, hspan, h⟩ := h
  have hstop : span.stop ≤ 0 + Text.width rest := Pattern.group?_stop_le hm hspan
  split at h
  · contradiction
  · obtain rfl := Option.some.inj h
    have hlength : span.length = span.stop - span.start := rfl
    omega

lemma Found.stop_le {p : Pattern} {text front rest : List Char} {s : Span}
    (h : Found p text s front rest) :
    s.stop ≤ Text.width text := by
  obtain ⟨n, hn, hstop⟩ := h.stop
  have hle := lengthAt?_le hn
  rw [hstop, h.start, h.text, Text.width_append]
  omega

end Keyword

namespace Language

/-- A token in an ordered list is kept, or it starts before `free` or inside a keyword that is kept
and stands before it. -/
lemma kept_or_covered {ts : List Token} (h : ts.Pairwise fun a b => a.before b = true)
    (free : Nat) {t : Token} (ht : t ∈ ts) :
    t ∈ dropCovered free ts ∨ t.start < free ∨
      ∃ k ∈ dropCovered free ts, k.category.isKeyword = true ∧ k.before t = true ∧
        t.start < k.stop := by
  induction ts generalizing free with
  | nil => contradiction
  | cons u us ih =>
    obtain ⟨hu, hus⟩ := List.pairwise_cons.mp h
    unfold dropCovered
    split
    · rcases List.mem_cons.mp ht with rfl | ht
      · exact .inl List.mem_cons_self
      · rcases ih hus free ht with hkept | hfree | ⟨k, hk, hcover⟩
        · exact .inl (List.mem_cons_of_mem u hkept)
        · exact .inr (.inl hfree)
        · exact .inr (.inr ⟨k, List.mem_cons_of_mem u hk, hcover⟩)
    next hkey =>
      have hkey : u.category.isKeyword = true := by simpa using hkey
      split
      next hfree =>
        rcases List.mem_cons.mp ht with rfl | ht
        · exact .inr (.inl hfree)
        · exact ih hus free ht
      next =>
        rcases List.mem_cons.mp ht with rfl | ht
        · exact .inl List.mem_cons_self
        · rcases ih hus u.stop ht with hkept | hfree | ⟨k, hk, hcover⟩
          · exact .inl (List.mem_cons_of_mem u hkept)
          · exact .inr (.inr ⟨u, List.mem_cons_self, hkey, hu t ht, hfree⟩)
          · exact .inr (.inr ⟨k, List.mem_cons_of_mem u hk, hcover⟩)

variable {l : Language} {text : List Char}

/-- The tokens of one category of keywords do not overlap. -/
lemma keywordTokens_pairwise (p : Pattern) (c : Category) (text : List Char) :
    (keywordTokens p c text).Pairwise fun a b => a.stop ≤ b.start := by
  rw [keywordTokens, List.pairwise_map]
  apply (Keyword.spans_pairwise p text).imp_of_mem
  intro a b ha _ hab
  obtain ⟨_, _, hfound⟩ := Keyword.found_of_mem_spans ha
  have hlt := hfound.start_lt_stop
  have hstop : a.start + (a.stop - a.start) ≤ b.start := by omega
  exact hstop

/-- The pattern that finds the keywords of a category. -/
def keywordPattern (l : Language) : Category → Pattern
  | .openBlock => l.openKeywords
  | .closeBlock => l.closeKeywords
  | .neutral => l.neutralKeywords
  | _ => .never

lemma mem_keywordTokens_of_mem_keywords {t : Token} (h : t ∈ l.keywords text) :
    t ∈ keywordTokens (l.keywordPattern t.category) t.category text := by
  have hcategory {p : Pattern} {c : Category} (ht : t ∈ keywordTokens p c text) :
      t.category = c := by
    obtain ⟨s, -, rfl⟩ := List.mem_map.mp ht
    rfl
  simp only [keywords, List.mem_append] at h
  rcases h with (h | h) | h <;> rw [hcategory h] <;> exact h

/-- A keyword is a stretch that the pattern of its category finds. -/
lemma mem_spans_of_mem_keywords {t : Token} (h : t ∈ l.keywords text) :
    t.span ∈ Keyword.spans (l.keywordPattern t.category) text := by
  obtain ⟨s, hs, hst⟩ := List.mem_map.mp (mem_keywordTokens_of_mem_keywords h)
  obtain ⟨_, _, hfound⟩ := Keyword.found_of_mem_spans hs
  have hlt := hfound.start_lt_stop
  have hspan : t.span = s := by
    have hstop : s.start + (s.stop - s.start) = s.stop := by omega
    rw [← hst]
    exact congrArg (Span.mk s.start) hstop
  rwa [hspan]

lemma keyword_start_lt_stop {t : Token} (h : t ∈ l.keywords text) : t.start < t.stop := by
  obtain ⟨p, -, front, rest, hfound⟩ := found_of_mem_keywords h
  exact hfound.start_lt_stop

/-- A keyword that starts inside another one is of another category. -/
lemma category_ne_of_covered {k t : Token} (hk : k ∈ l.keywords text) (ht : t ∈ l.keywords text)
    (hne : k ≠ t) (hstart : k.start ≤ t.start) (hcover : t.start < k.stop) :
    k.category ≠ t.category := by
  intro hcategory
  have hk' := mem_keywordTokens_of_mem_keywords hk
  have ht' := mem_keywordTokens_of_mem_keywords ht
  rw [hcategory] at hk'
  have hpairs : (keywordTokens (l.keywordPattern t.category) t.category text).Pairwise
      fun a b => a.stop ≤ b.start ∨ b.stop ≤ a.start :=
    (keywordTokens_pairwise _ _ text).imp fun hab => .inl hab
  have : Std.Symm fun a b : Token => a.stop ≤ b.start ∨ b.stop ≤ a.start := ⟨fun _ _ => Or.symm⟩
  have hapart := hpairs.forall hk' ht' hne
  have htpos := keyword_start_lt_stop ht
  omega

/-- A keyword that is missing from the stream starts inside a keyword of the stream that
strictly precedes it. -/
lemma kept_of_mem_keywords (hblank : Text.isBlank text = false) {t : Token}
    (ht : t ∈ l.keywords text) :
    t ∈ l.scan text ∨ ∃ k ∈ l.scan text, k.category.isKeyword = true ∧ t.before k = false ∧
      k.start ≤ t.start ∧ t.start < k.stop := by
  have hmem : t ∈ Token.sort (l.found text) :=
    (Token.sort_perm _).symm.subset (mem_found.mpr (.inr (.inr ht)))
  by_cases hkept : t ∈ l.scan text
  · exact .inl hkept
  · have hcases := kept_or_covered (Token.sort_pairwise _) 0 hmem
    rw [← scan_eq hblank] at hcases
    obtain ⟨k, hk, hkey, hbefore, hcover⟩ :=
      (hcases.resolve_left hkept).resolve_left (Nat.not_lt_zero _)
    have hstart : k.start ≤ t.start := by
      rw [Token.before_iff] at hbefore
      omega
    have hne : k ≠ t := fun h => hkept (h ▸ hk)
    have hcategory := category_ne_of_covered (mem_keywords_of_mem_scan hk hkey) ht hne hstart hcover
    have hrank := Category.rank_injective.ne hcategory
    refine .inr ⟨k, hk, hkey, ?_, hstart, hcover⟩
    rw [Token.before_iff] at hbefore
    rw [Bool.eq_false_iff, Ne, Token.before_iff]
    omega

/-- The spans of the assignments of a text are spans of keywords of its stream, in their order. -/
lemma run_spans_sublist (ts : List Token) (slots : Nat) :
    ((Depth.run {} ts).map fun (t, depth) =>
      (⟨t.start, t.length, depth % slots⟩ : Assignment).span).Sublist
      ((ts.filter (·.category.isKeyword)).map Token.span) := by
  have hsub := (Depth.run_sublist {} ts).map Token.span
  rw [List.map_map] at hsub
  exact hsub

lemma keyword_stop_le {t : Token} (h : t ∈ l.keywords text) : t.stop ≤ Text.width text := by
  obtain ⟨p, -, front, rest, hfound⟩ := found_of_mem_keywords h
  exact hfound.stop_le

/-- Whatever the patterns of a language, its stream is in order, its keywords do not
overlap, a keyword is missing only if it starts inside a keyword of the stream that precedes
it, and the assignments are spans of keywords of the stream, in order, inside the text and
with slots of the palette. -/
theorem scan_keeps (l : Language) (text : List Char) {slots : Nat} (h : 0 < slots) :
    (l.scan text).Pairwise (fun a b => a.before b = true) ∧
      ((l.scan text).filter (·.category.isKeyword)).Pairwise (fun a b => a.stop ≤ b.start) ∧
      (Text.isBlank text = false → ∀ t ∈ l.keywords text,
        t ∈ l.scan text ∨ ∃ k ∈ l.scan text, k.category.isKeyword = true ∧ t.before k = false ∧
          k.start ≤ t.start ∧ t.start < k.stop) ∧
      ∃ as, classify (l.scan text) slots = .ok as ∧
        (as.map Assignment.span).Sublist
          (((l.scan text).filter (·.category.isKeyword)).map Token.span) ∧
        as.Pairwise (fun a b => a.start < b.start ∧ a.stop ≤ b.start) ∧
        ∀ a ∈ as, 0 < a.length ∧ a.stop ≤ Text.width text ∧ a.bucket < slots := by
  refine ⟨scan_pairwise l text, scan_keywords_pairwise l text, fun hblank t ht =>
    kept_of_mem_keywords hblank ht, ?_⟩
  obtain ⟨as, has, hkeyword, hapart⟩ := classify_scan l text h
  have heq := Except.ok.inj ((classify_eq h).symm.trans has)
  have hinside (a : Assignment) (ha : a ∈ as) : 0 < a.length ∧ a.stop ≤ Text.width text := by
    obtain ⟨t, ht, hk, hstart, hlength⟩ := hkeyword a ha
    have hmem := mem_keywords_of_mem_scan ht hk
    have hpos := keyword_start_lt_stop hmem
    have hle := keyword_stop_le hmem
    rw [Token.stop, hstart, hlength] at hpos hle
    exact ⟨by omega, hle⟩
  refine ⟨as, has, ?_, ?_, fun a ha => ⟨(hinside a ha).1, (hinside a ha).2, ?_⟩⟩
  · rw [← heq, List.map_map]
    exact run_spans_sublist (l.scan text) slots
  · apply hapart.imp_of_mem
    intro a b ha _ hab
    have hpos := (hinside a ha).1
    have hstop : a.stop = a.start + a.length := rfl
    exact ⟨by omega, hab⟩
  · rw [← heq] at ha
    obtain ⟨u, -, rfl⟩ := List.mem_map.mp ha
    exact Nat.mod_lt _ h

/-- A language with a keyword of two words, which are keywords of other categories themselves. -/
def overlapping : Language where
  id := "overlapping"
  openKeywords := Keyword.ofWords false ["end if".toList]
  closeKeywords := Keyword.ofWords false ["end".toList]
  neutralKeywords := Keyword.ofWords false ["if".toList, "else".toList]
  regions := ⟨.never, .never⟩
  comprehensions := ⟨.never, .never⟩

theorem scan_keeps_overlapping :
    0 < 2 ∧ overlapping.keywords "end if else".toList =
      [⟨0, 6, .openBlock⟩, ⟨0, 3, .closeBlock⟩, ⟨4, 2, .neutral⟩,
        ⟨7, 4, .neutral⟩] ∧
      overlapping.scan "end if else".toList = [⟨0, 6, .openBlock⟩, ⟨7, 4, .neutral⟩] ∧
      ∃ as, classify (overlapping.scan "end if else".toList) 2 = .ok as ∧
        ∀ a ∈ as, 0 < a.length ∧ a.stop ≤ 11 ∧ a.bucket < 2 := by
  obtain ⟨-, -, -, as, has, -, -, hall⟩ :=
    scan_keeps overlapping "end if else".toList (by decide : 0 < 2)
  exact ⟨by decide, by decide +kernel, by cbv, as, has, hall⟩

end Language
end BlockHue
