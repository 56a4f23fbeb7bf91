import BlockHue.Proofs.Alike
import BlockHue.Proofs.Visibility

/-! Comments and strings do not interfere. Of a stream only the tokens outside of regions and the
markers are visible to the depth machine, and which these are depends on the text outside of the
regions alone. Main statement: texts of a built-in language that differ in their regions only have
the same assignments. -/
namespace BlockHue

namespace Token

/-- A marker without the size of its character: at the first byte of its region, or
at the last one. -/
def bare (t : Token) : Token :=
  match t.category with
  | .openIgnore => ⟨t.start, 0, .openIgnore⟩
  | .closeIgnore => ⟨t.stop - 1, 0, .closeIgnore⟩
  | _ => t

lemma bare_category (t : Token) : t.bare.category = t.category := by
  unfold bare
  split <;> simp_all

lemma bare_of_not_isMarker {t : Token} (h : t.category.isMarker = false) : t.bare = t := by
  unfold bare
  split <;> simp_all [Category.isMarker]

/-- The tokens outside of some regions and the markers. -/
def visible (spans : List Span) (ts : List Token) : List Token :=
  (ts.filter fun t => t.category.isMarker || Span.outside spans t.start).map bare

lemma visible_append (spans : List Span) (ts us : List Token) :
    visible spans (ts ++ us) = visible spans ts ++ visible spans us := by
  simp [visible]

lemma visible_cons (spans : List Span) (t : Token) (ts : List Token) :
    visible spans (t :: ts) =
      if t.category.isMarker || Span.outside spans t.start then t.bare :: visible spans ts
      else visible spans ts := by
  unfold visible
  rw [List.filter_cons]
  split <;> rfl

/-- Of the tokens of some stretches those outside of regions are visible. -/
lemma visible_map_token (spans : List Span) {c : Category} (hc : c.isMarker = false)
    (ss : List Span) :
    visible spans (ss.map (Span.token c)) =
      (ss.filter (Span.outside spans ·.start)).map (Span.token c) := by
  induction ss with
  | nil => rfl
  | cons s ss ih =>
    have hbare : (Span.token c s).bare = Span.token c s := bare_of_not_isMarker hc
    have hcategory : (Span.token c s).category.isMarker = false := hc
    rw [List.map_cons, visible_cons, ih, hbare, hcategory, Bool.false_or, List.filter_cons]
    have hstart : (Span.token c s).start = s.start := rfl
    rw [hstart]
    split <;> rfl

lemma bare_length {t : Token} (h : t.category.isMarker = true) : t.bare.length = 0 := by
  cases hc : t.category <;> simp_all [bare, Category.isMarker]

end Token

namespace Depth

/-- Tokens that are read inside a region, its end excepted, can be left out. -/
lemma run_filter {s : State} {ts : List Token} {q : Token → Bool}
    (h : ∀ before t after, ts = before ++ t :: after → q t = false →
      (s.feed before).mode = .ignore ∧ t.category.isMarker = false) :
        run s (ts.filter q) = run s ts := by
  induction ts generalizing s with
  | nil => rfl
  | cons t ts ih =>
    cases hq : q t with
    | false =>
      obtain ⟨hmode, hmarker⟩ := h [] t ts rfl hq
      have hstep : s.step t.category = (none, s) := by
        rcases s with ⟨mode, depth⟩
        obtain rfl : mode = .ignore := hmode
        cases hc : t.category <;> simp [State.step, hc, Category.isMarker] at hmarker ⊢
      rw [List.filter_cons_of_neg (by simp [hq])]
      have hrun : run s (t :: ts) = run s ts := by simp only [run, hstep]
      rw [hrun]
      refine ih fun before u after hts hu => ?_
      have hu' := h (t :: before) u after (by rw [hts, List.cons_append]) hu
      rwa [State.feed_cons, hstep] at hu'
    | true =>
      have htail : run (s.step t.category).2 (ts.filter q) = run (s.step t.category).2 ts :=
        ih fun before u after hts hu => h (t :: before) u after (by rw [hts, List.cons_append]) hu
      rw [List.filter_cons_of_pos hq]
      rcases hs : s.step t.category with ⟨_ | depth, s'⟩ <;> simpa [run, hs] using htail

lemma run_map_bare (s : State) (ts : List Token) : run s (ts.map Token.bare) = run s ts := by
  induction ts generalizing s with
  | nil => rfl
  | cons t ts ih =>
    rcases hs : s.step t.category with ⟨_ | depth, s'⟩
    · simp [run, Token.bare_category, hs, ih]
    · have hbare : t.bare = t := by
        apply Token.bare_of_not_isMarker
        by_contra hmarker
        have hnone :=
          s.step_fst_of_not_keyword (Category.not_isKeyword_of_isMarker (by simpa using hmarker))
        simp [hs] at hnone
      simp [run, hbare, hs, ih]

end Depth

namespace Language

/-- Dropping covered keywords and leaving out what stands in regions can be done in either order, if
no keyword of a region goes beyond it. -/
lemma visible_dropCovered {spans : List Span} {ts : List Token}
    (hts : ts.Pairwise fun a b => a.before b = true)
    (hinside : ∀ k ∈ ts, k.category.isKeyword = true → Span.outside spans k.start = false →
      ∀ t ∈ ts, Span.outside spans t.start = true → k.start ≤ t.start → k.stop ≤ t.start)
        {free free' : Nat}
    (hfree : ∀ t ∈ ts, Span.outside spans t.start = true → (t.start < free ↔ t.start < free')) :
    Token.visible spans (dropCovered free ts) = dropCovered free' (Token.visible spans ts) := by
  induction ts generalizing free free' with
  | nil => rfl
  | cons t ts ih =>
    rw [List.pairwise_cons] at hts
    have htail {free free' : Nat}
        (hfree : ∀ u ∈ ts, Span.outside spans u.start = true → (u.start < free ↔ u.start < free')) :
        Token.visible spans (dropCovered free ts) = dropCovered free' (Token.visible spans ts) :=
      ih hts.2 (fun k hk hkey hin u hu =>
        hinside k (List.mem_cons_of_mem t hk) hkey hin u (List.mem_cons_of_mem t hu)) hfree
    have hfree' : ∀ u ∈ ts, Span.outside spans u.start = true →
        (u.start < free ↔ u.start < free') :=
      fun u hu => hfree u (List.mem_cons_of_mem t hu)
    cases hk : t.category.isKeyword with
    | false =>
      rw [dropCovered_other hk, Token.visible_cons, Token.visible_cons]
      split
      · have hbare : t.bare.category.isKeyword = false := by rwa [Token.bare_category]
        rw [dropCovered_other hbare, htail hfree']
      · exact htail hfree'
    | true =>
      have hmarker := Category.not_isMarker_of_isKeyword hk
      have hbare := Token.bare_of_not_isMarker hmarker
      cases hout : Span.outside spans t.start with
      | true =>
        have hvisible (us : List Token) : Token.visible spans (t :: us) =
            t :: Token.visible spans us := by
          simp [Token.visible_cons, hmarker, hout, hbare]
        have hsame := hfree t List.mem_cons_self hout
        by_cases hlt : t.start < free
        · rw [dropCovered_covered hk hlt, hvisible, dropCovered_covered hk (hsame.mp hlt),
            htail hfree']
        · rw [dropCovered_free hk hlt, hvisible, hvisible, dropCovered_free hk fun h =>
            hlt (hsame.mpr h), htail fun _ _ _ => Iff.rfl]
      | false =>
        have hvisible (us : List Token) : Token.visible spans (t :: us) =
            Token.visible spans us := by
          simp [Token.visible_cons, hmarker, hout]
        rw [hvisible]
        by_cases hlt : t.start < free
        · rw [dropCovered_covered hk hlt, htail hfree']
        · rw [dropCovered_free hk hlt, hvisible]
          refine htail fun u hu huout => ?_
          have hle : t.start ≤ u.start := by
            have hbefore := Token.before_iff.mp (hts.1 u hu)
            omega
          have hstop := hinside t List.mem_cons_self hk hout u (List.mem_cons_of_mem t hu) huout hle
          have hiff := hfree' u hu huout
          omega

namespace Plain

variable {l : Language} {p : Profile} {text : List Char}

lemma sealed (hl : l.Plain p) (hp : p.Sealing) {m : Match} (hm : m ∈ l.regions.find text) :
    ∃ front inside back, m.Marked text front inside back ∧ p.Sealed inside back := by
  rw [hl.regions] at hm
  obtain ⟨front, inside, back, hmarked, hdelimits⟩ := Regions.delimits_of_mem_find hm
  exact ⟨front, inside, back, hmarked, hp.sealed hdelimits⟩

lemma cut (hl : l.Plain p) (hp : p.Sealing) (text : List Char) :
    Cut p 0 ((l.regions.find text).map Match.span) text := by
  have hstart : Cut p (Text.width []) ((l.regions.find text).map Match.span) text :=
    Cut.of_matches (fun m hm => ⟨Nat.zero_le _, hl.sealed hp hm⟩)
      (Regions.find_pairwise l.regions text)
  exact hstart

/-- A keyword that starts in a region ends in it. -/
lemma keyword_stop_le (hl : l.Plain p) (hp : p.Sealing) {t : Token} {m : Match}
    (ht : t ∈ l.keywords text) (hm : m ∈ l.regions.find text) (hstart : m.start.offset ≤ t.start)
    (hstop : t.start < m.stop.offset) :
    t.stop ≤ m.stop.offset := by
  have hmem := mem_spans_of_mem_keywords ht
  rw [hl.spells.keywordPattern] at hmem
  exact (hl.cut hp text).keyword_inside hp (p.keywordsOf_subset _) true hmem
    (List.mem_map_of_mem hm) hstart hstop

/-- A keyword that starts in a region starts in front of its last character. -/
lemma keyword_lt_last (hl : l.Plain p) (hp : p.Sealing) {t : Token} {m : Match}
    (ht : t ∈ l.keywords text) (hm : m ∈ l.regions.find text) (hstart : m.start.offset ≤ t.start)
    (hstop : t.start < m.stop.offset) :
    t.start < m.lastMarker.start := by
  have hinside := hl.keyword_stop_le hp ht hm hstart hstop
  obtain ⟨front, inside, back, hmarked⟩ := Regions.find_marked hm
  obtain ⟨front', rest, hfound⟩ := found_of_mem_keywordTokens (mem_keywordTokens_of_mem_keywords ht)
  have hle := hmarked.boundary_le_last ⟨front', rest, hfound.text, hfound.start⟩ hstop
  refine hle.lt_of_ne fun (heq : t.start = m.lastMarker.start) => ?_
  obtain ⟨cs, c, rfl, hlast⟩ := hmarked.last
  have hcut : (front ++ cs) ++ c :: back = front' ++ rest := by
    rw [← hfound.text, hmarked.text]
    simp
  have hstart' : t.start = Text.width (front ++ cs) := by rw [heq, hlast]
  obtain ⟨-, rfl⟩ := Text.eq_of_width_eq hcut (hstart'.symm.trans hfound.start)
  obtain ⟨n, hn, hend⟩ := hfound.stop
  have hend : t.stop = t.start + n := hend
  rw [hl.spells.keywordPattern] at hn
  have hfirst :=
    Keyword.first_lt_of_lengthAt? (fun w hw => hp.words w (p.keywordsOf_subset _ hw)) hn
  have hstop' := hmarked.stop
  simp only [← List.append_assoc, Text.width_append, Text.width_cons,
    Text.width_nil] at hstop' hstart' hend
  omega

/-- Where a bracket stands: at a character boundary, and not at the first character of a region. -/
lemma bracket_place (hl : l.Plain p) (hp : p.Sealing) {t : Token}
    (ht : t ∈ l.comprehensions.tokens text) :
    Text.Boundary text t.start ∧ ∀ m ∈ l.regions.find text, m.start.offset ≠ t.start := by
  have hset : ∃ letters ⊆ p.openBrackets ++ p.closeBrackets,
      ∃ s ∈ (CharSet.ofLetters p.caseSensitive letters).spansFrom 0 text, t.start = s.start := by
    rw [hl.bracket_tokens] at ht
    rcases List.mem_append.mp ht with ht | ht
    · obtain ⟨s, hs, rfl⟩ := List.mem_map.mp ht
      exact ⟨p.openBrackets, by simp, s, hs, rfl⟩
    · obtain ⟨s, hs, rfl⟩ := List.mem_map.mp ht
      exact ⟨p.closeBrackets, by simp, s, hs, rfl⟩
  obtain ⟨letters, hsub, s, hs, hts⟩ := hset
  obtain ⟨front, c, back, htext, hc, hstart, -⟩ := CharSet.mem_spansFrom hs
  have hstart : t.start = Text.width front := by rw [hts, hstart, Nat.zero_add]
  refine ⟨⟨front, c :: back, htext, hstart⟩, fun m hm heq => ?_⟩
  obtain ⟨front', inside, back', hmarked, hsealed⟩ := hl.sealed hp hm
  obtain ⟨d, ds, rfl, hd⟩ := hsealed.first
  have hcut : front' ++ (d :: ds ++ back') = front ++ c :: back := by
    rw [← htext, hmarked.text, List.append_assoc]
  obtain ⟨-, hrest⟩ := Text.eq_of_width_eq hcut (by rw [← hstart, ← heq, hmarked.start])
  obtain ⟨rfl, -⟩ := List.cons.inj hrest
  obtain ⟨b, hb, hcanon⟩ := CharSet.contains_ofLetters.mp hc
  exact hd.2.2 (hcanon ▸ List.mem_map_of_mem (hsub hb))

lemma outside_eq_false_iff {n : Nat} :
    Span.outside ((l.regions.find text).map Match.span) n = false ↔
      ∃ m ∈ l.regions.find text, m.start.offset ≤ n ∧ n < m.stop.offset := by
  simp [Span.outside_eq_false_iff, Match.span]

/-- Leaving out what stands in regions does not change what a stream comes to. -/
lemma run_visible (hl : l.Plain p) (hp : p.Sealing) (hblank : Text.isBlank text = false) :
    Depth.run {} (Token.visible ((l.regions.find text).map Match.span) (l.scan text)) =
      Depth.run {} (l.scan text) := by
  rw [Token.visible, Depth.run_map_bare]
  refine Depth.run_filter fun before t after hsplit ht => ?_
  rw [Bool.or_eq_false_iff, outside_eq_false_iff] at ht
  obtain ⟨hmarker, m, hm, hstart, hstop⟩ := ht
  refine ⟨?_, hmarker⟩
  have hmem : t ∈ l.scan text := hsplit ▸ List.mem_append_right before List.mem_cons_self
  rcases mem_found.mp (mem_found_of_mem_scan hmem) with ht | ht | ht
  · obtain ⟨hboundary, hne⟩ := hl.bracket_place hp ht
    obtain ⟨_, _, _, hmarked⟩ := Regions.find_marked hm
    rw [bracket_hidden_iff hblank hsplit (isBracket_of_mem_comprehensions ht)]
    exact ⟨m, hm, hstart.lt_of_ne (hne m hm), hmarked.boundary_le_last hboundary hstop⟩
  · rw [isMarker_of_mem_regions ht] at hmarker
    contradiction
  · rw [keyword_hidden_iff hblank hsplit (isKeyword_of_mem_keywords ht)]
    exact ⟨m, hm, hstart, hl.keyword_lt_last hp ht hm hstart hstop⟩

lemma visible_scan (hl : l.Plain p) (hp : p.Sealing) (hblank : Text.isBlank text = false) :
    Token.visible ((l.regions.find text).map Match.span) (l.scan text) =
      dropCovered 0
        (Token.visible ((l.regions.find text).map Match.span) (Token.sort (l.found text))) := by
  rw [scan_eq hblank]
  refine visible_dropCovered (Token.sort_pairwise _) (fun k hk hkey hin t _ hout hle => ?_)
    (fun _ _ _ => Iff.rfl)
  obtain ⟨m, hm, hstart, hstop⟩ := outside_eq_false_iff.mp hin
  have hmem : k ∈ l.keywords text := mem_keywords_of_mem_found ((Token.sort_perm _).subset hk) hkey
  have hend := hl.keyword_stop_le hp hmem hm hstart hstop
  have hbehind : ¬ (m.start.offset ≤ t.start ∧ t.start < m.stop.offset) := by
    intro h
    rw [outside_eq_false_iff.mpr ⟨m, hm, h⟩] at hout
    contradiction
  omega

/-- A marker of a text belongs to a region; without the size of its character it
stays in the region. -/
lemma marker_place {t : Token} (ht : t ∈ l.found text) (hmarker : t.category.isMarker = true) :
    ∃ m ∈ l.regions.find text, m.start.offset ≤ t.start ∧ t.start < m.stop.offset ∧
      (t.category = .openIgnore ∧ t.start = m.start.offset ∧ t.bare.start = m.start.offset ∨
        t.category = .closeIgnore ∧ t.bare.start = m.stop.offset - 1) := by
  have hmem := mem_regions_of_mem_found ht hmarker
  rw [Regions.tokens_eq] at hmem
  obtain ⟨m, hm, hmem⟩ := List.mem_flatMap.mp hmem
  obtain ⟨front, inside, back, hmarked⟩ := Regions.find_marked hm
  have hle := hmarked.first_le_last
  have hlt := hmarked.last_lt_stop
  rw [Match.firstMarker_start] at hle
  rcases List.mem_pair.mp hmem with rfl | rfl
  · exact ⟨m, hm, le_rfl, by rw [Match.firstMarker_start]; omega, .inl ⟨rfl, rfl, rfl⟩⟩
  · exact ⟨m, hm, hle, hlt, .inr ⟨rfl, congrArg (· - 1) hmarked.last_stop⟩⟩

lemma visible_sort_pairwise (l : Language) (text : List Char) :
    (Token.visible ((l.regions.find text).map Match.span) (Token.sort (l.found text))).Pairwise
      fun a b => a.before b = true := by
  rw [Token.visible, List.pairwise_map]
  apply ((Token.sort_pairwise (l.found text)).filter _).imp_of_mem
  intro a b ha hb hab
  obtain ⟨ha, hashow⟩ := List.mem_filter.mp ha
  obtain ⟨hb, hbshow⟩ := List.mem_filter.mp hb
  have ha := (Token.sort_perm _).subset ha
  have hb := (Token.sort_perm _).subset hb
  have hout {t : Token}
      (ht : (t.category.isMarker ||
        Span.outside ((l.regions.find text).map Match.span) t.start) = true)
      (hmarker : t.category.isMarker = false) (m : Match) (hm : m ∈ l.regions.find text) :
      ¬ (m.start.offset ≤ t.start ∧ t.start < m.stop.offset) := by
    intro h
    rw [hmarker, outside_eq_false_iff.mpr ⟨m, hm, h⟩] at ht
    contradiction
  rw [Token.before_iff] at hab
  rw [Token.before_iff, Token.bare_category, Token.bare_category]
  cases hamarker : a.category.isMarker with
  | false =>
    rw [Token.bare_of_not_isMarker hamarker]
    cases hbmarker : b.category.isMarker with
    | false => rwa [Token.bare_of_not_isMarker hbmarker]
    | true =>
      obtain ⟨m, hm, hstart, hstop, hb'⟩ := marker_place hb hbmarker
      have ha' := hout hashow hamarker m hm
      omega
  | true =>
    obtain ⟨m, hm, hstart, hstop, ha'⟩ := marker_place ha hamarker
    cases hbmarker : b.category.isMarker with
    | false =>
      rw [Token.bare_of_not_isMarker hbmarker]
      have hb' := hout hbshow hbmarker m hm
      omega
    | true =>
      obtain ⟨n, hn, hstart', hstop', hb'⟩ := marker_place hb hbmarker
      have hopen : Category.rank .openIgnore = 2 := rfl
      have hclose : Category.rank .closeIgnore = 3 := rfl
      rcases Regions.find_apart hm hn with rfl | h | h
      · rcases ha' with ⟨hac, ha'⟩ | ⟨hac, ha'⟩ <;> rcases hb' with ⟨hbc, hb'⟩ | ⟨hbc, hb'⟩ <;>
          rw [hac, hbc] at hab ⊢ <;> omega
      · omega
      · omega

/-- The markers of a text without the sizes of their characters depend on where the regions are. -/
lemma visible_regions (l : Language) (text : List Char) (spans : List Span) :
    Token.visible spans (l.regions.tokens text) =
      ((l.regions.find text).map Match.span).flatMap
        fun s => [⟨s.start, 0, .openIgnore⟩, ⟨s.stop - 1, 0, .closeIgnore⟩] := by
  have hall : (l.regions.tokens text).filter
      (fun t => t.category.isMarker || Span.outside spans t.start) =
      l.regions.tokens text := by
    rw [List.filter_eq_self]
    intro t ht
    rw [isMarker_of_mem_regions ht, Bool.true_or]
  rw [Token.visible, hall, Regions.tokens_eq, List.map_flatMap, List.flatMap_map]
  apply List.flatMap_congr
  intro m hm
  obtain ⟨_, _, _, hmarked⟩ := Regions.find_marked hm
  have hlast : m.lastMarker.bare = ⟨m.stop.offset - 1, 0, .closeIgnore⟩ := by
    rw [← hmarked.last_stop]; rfl
  rw [List.map_cons, List.map_cons, hlast]
  rfl

/-- Of texts that differ in their regions only the same tokens are visible. -/
lemma visible_found_eq (hl : l.Plain p) (hp : p.Sealing) {text' : List Char} {spans : List Span}
    (h : Alike p 0 spans text text') (hspans : (l.regions.find text).map Match.span = spans)
    (hspans' : (l.regions.find text').map Match.span = spans) :
    Token.visible spans (l.found text) = Token.visible spans (l.found text') := by
  have hkeywords (q : Pattern) (words : List (List Char))
      (hq : q = Keyword.ofWords p.caseSensitive words)
      (hsub : words ⊆ p.words) {c : Category} (hc : c.isMarker = false) :
      Token.visible spans (keywordTokens q c text) =
        Token.visible spans (keywordTokens q c text') := by
    have htokens (text : List Char) :
        keywordTokens q c text = (Keyword.spans q text).map (Span.token c) := rfl
    rw [htokens, htokens, Token.visible_map_token spans hc, Token.visible_map_token spans hc, hq]
    exact congrArg _ (h.keywords_eq hp hsub true)
  simp only [found, keywords, Token.visible_append, visible_regions, hspans, hspans',
    hl.bracket_tokens]
  rw [Token.visible_map_token spans rfl, Token.visible_map_token spans rfl,
    Token.visible_map_token spans rfl, Token.visible_map_token spans rfl, h.brackets_eq,
      h.brackets_eq]
  obtain ⟨hopen, hclose, hneutral⟩ := hl.spells
  rw [hkeywords _ _ hopen (p.keywordsOf_subset .openBlock) rfl,
    hkeywords _ _ hclose (p.keywordsOf_subset .closeBlock) rfl,
      hkeywords _ _ hneutral (p.keywordsOf_subset .neutral) rfl]

/-- Two brackets or keywords of one category do not start together. -/
lemma eq_of_start_eq (hl : l.Plain p) {a b : Token} (ha : a ∈ l.found text) (hb : b ∈ l.found text)
    (hmarker : a.category.isMarker = false) (hstart : a.start = b.start)
    (hcategory : a.category = b.category) : a = b := by
  cases hk : a.category.isKeyword with
  | true =>
    by_contra hne
    have ha := mem_keywords_of_mem_found ha hk
    have hb := mem_keywords_of_mem_found hb (hcategory ▸ hk)
    have hcover : b.start < a.stop := hstart ▸ keyword_start_lt_stop ha
    exact category_ne_of_covered ha hb hne hstart.le hcover hcategory
  | false =>
    have hbracket := Category.isBracket_of_other hk hmarker
    have ha := mem_brackets_of_mem_found ha hbracket
    have hb := mem_brackets_of_mem_found hb (hcategory ▸ hbracket)
    rw [hl.bracket_tokens, List.mem_append] at ha hb
    rcases ha with ha | ha <;> obtain ⟨s, hs, rfl⟩ := List.mem_map.mp ha <;>
      rcases hb with hb | hb <;>
      obtain ⟨s', hs', rfl⟩ := List.mem_map.mp hb <;>
      first
      | rw [CharSet.eq_of_start_eq hs hs' hstart]
      | contradiction

/-- The order of the visible tokens of a text is strict. -/
lemma visible_antisymm (hl : l.Plain p) {spans : List Span} {a b : Token}
    (ha : a ∈ Token.visible spans (l.found text)) (hb : b ∈ Token.visible spans (l.found text))
    (hab : a.before b = true) (hba : b.before a = true) : a = b := by
  rw [Token.before_iff] at hab hba
  have hstart : a.start = b.start := by omega
  have hcategory : a.category = b.category := Category.rank_injective (by omega)
  obtain ⟨x, hx, rfl⟩ := List.mem_map.mp ha
  obtain ⟨y, hy, rfl⟩ := List.mem_map.mp hb
  have hxy : x.category = y.category := by
    rwa [Token.bare_category, Token.bare_category] at hcategory
  cases hmarker : x.category.isMarker with
  | true =>
    have hlength : x.bare.length = y.bare.length := by
      rw [Token.bare_length hmarker, Token.bare_length (hxy ▸ hmarker)]
    rcases hx' : x.bare with ⟨start, length, category⟩
    rcases hy' : y.bare with ⟨start', length', category'⟩
    rw [hx', hy'] at hstart hlength hcategory
    simp only at hstart hlength hcategory
    rw [hstart, hlength, hcategory]
  | false =>
    rw [Token.bare_of_not_isMarker hmarker, Token.bare_of_not_isMarker (hxy ▸ hmarker)] at hstart ⊢
    exact hl.eq_of_start_eq (List.mem_filter.mp hx).1 (List.mem_filter.mp hy).1 hmarker hstart hxy

/-- Texts that differ in their regions only have the same visible tokens in the same order. -/
lemma visible_sort_eq (hl : l.Plain p) (hp : p.Sealing) {text' : List Char} {spans : List Span}
    (h : Alike p 0 spans text text') (hspans : (l.regions.find text).map Match.span = spans)
    (hspans' : (l.regions.find text').map Match.span = spans) :
    Token.visible spans (Token.sort (l.found text)) =
      Token.visible spans (Token.sort (l.found text')) := by
  have hsorted := visible_sort_pairwise l text
  have hsorted' := visible_sort_pairwise l text'
  rw [hspans] at hsorted
  rw [hspans'] at hsorted'
  have hperm (ts : List Token) :
      (Token.visible spans (Token.sort ts)).Perm (Token.visible spans ts) :=
    ((Token.sort_perm ts).filter _).map _
  have hfound := hl.visible_found_eq hp h hspans hspans'
  refine List.Perm.eq_of_pairwise (fun a b ha hb hab hba => ?_) hsorted hsorted'
    ((hperm _).trans (hfound ▸ (hperm _).symm))
  exact hl.visible_antisymm ((hperm _).subset ha) (hfound ▸ (hperm _).subset hb) hab hba

lemma not_blank_of_region (hl : l.Plain p) (hp : p.Sealing) {m : Match}
    (hm : m ∈ l.regions.find text) :
    Text.isBlank text = false := by
  obtain ⟨front, inside, back, hmarked, hsealed⟩ := hl.sealed hp hm
  obtain ⟨c, cs, rfl, hc⟩ := hsealed.first
  rw [hmarked.text, Text.isBlank, List.all_eq_false]
  exact ⟨c, by simp, by simp [hc.isSpace]⟩

lemma run_scan_eq (hl : l.Plain p) (hp : p.Sealing) {text' : List Char}
    (hspans : (l.regions.find text').map Match.span = (l.regions.find text).map Match.span)
    (h : Alike p 0 ((l.regions.find text).map Match.span) text text') :
    Depth.run {} (l.scan text) = Depth.run {} (l.scan text') := by
  rcases hfind : l.regions.find text with _ | ⟨m, ms⟩
  · rw [hfind] at h
    cases h with
    | rest => rfl
  · rcases hfind' : l.regions.find text' with _ | ⟨m', ms'⟩
    · simp [hfind, hfind'] at hspans
    have hblank := hl.not_blank_of_region hp (hfind ▸ List.mem_cons_self : m ∈ l.regions.find text)
    have hblank' :=
      hl.not_blank_of_region hp (hfind' ▸ List.mem_cons_self : m' ∈ l.regions.find text')
    rw [← hl.run_visible hp hblank, ← hl.run_visible hp hblank', hl.visible_scan hp hblank,
      hl.visible_scan hp hblank', hspans, hl.visible_sort_eq hp h rfl hspans]

end Plain
end Language

namespace BuiltIn

/-- What stands in comments and strings does not matter: in a built-in language two texts of one
length with the same regions and the same bytes outside of them have the same assignments. -/
theorem assign_eq_of_outside_eq [Dialect] {id : String} {p : Profile} (hp : (id, p) ∈ profiles)
    {l : Language} (hl : Registry.builtIn.get id = .ok l) {text text' : List Char}
    (hlength : (Text.bytes text).length = (Text.bytes text').length)
    (hspans : (l.regions.find text).map Match.span = (l.regions.find text').map Match.span)
    (hbytes : ∀ i < (Text.bytes text).length,
      (∀ s ∈ (l.regions.find text).map Match.span, i < s.start ∨ s.stop ≤ i) →
        (Text.bytes text)[i]? = (Text.bytes text')[i]?)
    (slots : Nat) :
    Registry.builtIn.assign text id slots = Registry.builtIn.assign text' id slots := by
  obtain ⟨l', hl', hplain⟩ := get_plain hp
  obtain rfl : l = l' := Except.ok.inj (hl.symm.trans hl')
  have hsealing : p.Sealing := sealing_profiles _ hp
  have hcut := hplain.cut hsealing text'
  rw [← hspans] at hcut
  have halike := Alike.of_cuts (hplain.cut hsealing text) hcut fun i hi => by
    rw [Nat.zero_add] at hi
    by_cases hlt : i < (Text.bytes text).length
    · refine hbytes i hlt fun s hs => ?_
      simpa using List.all_eq_true.mp hi s hs
    · rw [List.getElem?_eq_none (by omega), List.getElem?_eq_none (by omega)]
  have hrun := hplain.run_scan_eq hsealing hspans.symm halike
  simp only [Registry.assign, hl, Except.bind, classify, hrun]

open scoped Dialect.Standard

/-- Two comments with other words, a bracket in one of them and a letter of two
bytes in the other. -/
theorem assign_eq_of_comments :
    ("julia", julia) ∈ profiles ∧ ∃ l, Registry.builtIn.get "julia" = .ok l ∧
      (l.regions.find "if # end [\nend".toList).map Match.span = [⟨3, 10⟩] ∧
      (l.regions.find "if # \u00e9 do\nend".toList).map Match.span = [⟨3, 10⟩] ∧
      Registry.builtIn.assign "if # end [\nend".toList "julia" 3 =
        Registry.builtIn.assign "if # \u00e9 do\nend".toList "julia" 3 := by
  have hp : ("julia", julia) ∈ profiles := by simp [profiles]
  have hmap : (Language.compile? "julia" julia).map (fun l =>
      ((l.regions.find "if # end [\nend".toList).map Match.span,
        (l.regions.find "if # \u00e9 do\nend".toList).map Match.span)) =
          some ([⟨3, 10⟩], [⟨3, 10⟩]) := by
    decide +kernel
  have hbytes : ∀ i < (Text.bytes "if # end [\nend".toList).length,
      (∀ s ∈ [(⟨3, 10⟩ : Span)], i < s.start ∨ s.stop ≤ i) →
        (Text.bytes "if # end [\nend".toList)[i]? =
          (Text.bytes "if # \u00e9 do\nend".toList)[i]? := by
    decide +kernel
  obtain ⟨l, hcompile, hfind⟩ := Option.map_eq_some_iff.mp hmap
  obtain ⟨hfind, hfind'⟩ := Prod.mk.inj hfind
  have hl := get_eq_compile hp hcompile
  refine ⟨hp, l, hl, hfind, hfind', ?_⟩
  exact assign_eq_of_outside_eq hp hl (by decide +kernel) (hfind.trans hfind'.symm)
    (hfind ▸ hbytes) 3

end BuiltIn
end BlockHue
