import BlockHue.Pattern.Standard
import BlockHue.Proofs.Stream

/-! What the depth machine sees of a text. The markers of the regions hide a stretch of the stream
each; the first main statement says which tokens they hide. A keyword is not hidden by the region
that ends with it, which the second main statement turns into the exact condition for a keyword
inside a region to be coloured. -/
namespace BlockHue
namespace Language
open Depth

variable {l : Language} {text : List Char}

/-- The picked tokens of a beginning of a list, if a condition tells them from the picked
tokens behind it. -/
lemma filter_of_split {before rest : List Token} {q P : Token → Bool}
    (hbefore : ∀ x ∈ before, q x = true → P x = true)
    (hrest : ∀ x ∈ rest, q x = true → P x = false) :
    before.filter q = ((before ++ rest).filter q).filter P := by
  rw [List.filter_append, List.filter_append, List.filter_filter, List.filter_filter]
  have hnone : rest.filter (fun x => P x && q x) = [] := by
    rw [List.filter_eq_nil_iff]
    intro x hx hPq
    rw [Bool.and_eq_true] at hPq
    rw [hrest x hx hPq.2] at hPq
    exact absurd hPq.1 (by decide)
  rw [hnone, List.append_nil]
  apply List.filter_congr
  intro x hx
  cases hq : q x with
  | false => simp
  | true => simp [hbefore x hx hq]

lemma before_of_split {before after : List Token} {t : Token}
    (h : l.scan text = before ++ t :: after) :
    (∀ x ∈ before, x.before t = true) ∧ ∀ x ∈ after, t.before x = true := by
  have hpairs := h ▸ scan_pairwise l text
  rw [List.pairwise_append, List.pairwise_cons] at hpairs
  exact ⟨fun x hx => hpairs.2.2 x hx t List.mem_cons_self, hpairs.2.1.1⟩

/-- The markers in front of a token of another kind are those that the order puts there. -/
lemma markers_before {before after : List Token} {t : Token}
    (h : l.scan text = before ++ t :: after) (ht : t.category.isMarker = false) :
    before.filter (·.category.isMarker) =
      ((l.scan text).filter (·.category.isMarker)).filter (fun x => x.before t) := by
  obtain ⟨hbefore, hafter⟩ := before_of_split h
  rw [h]
  apply filter_of_split
  · exact fun x hx _ => hbefore x hx
  · intro x hx hm
    have hne : x ≠ t := by
      rintro rfl
      simp [ht] at hm
    have htx := Token.before_iff.mp (hafter x ((List.mem_cons.mp hx).resolve_left hne))
    have hrank := Category.rank_ne_of_isMarker hm ht
    rw [Bool.eq_false_iff, Ne, Token.before_iff]
    omega

/-- A marker that starts with a keyword stands in front of it. -/
lemma markers_before_keyword {before after : List Token} {t : Token}
    (h : l.scan text = before ++ t :: after) (hk : t.category.isKeyword = true) :
    before.filter (·.category.isMarker) =
      ((l.scan text).filter (·.category.isMarker)).filter (fun x => x.start ≤ t.start) := by
  rw [markers_before h (Category.not_isMarker_of_isKeyword hk)]
  apply List.filter_congr
  intro x hx
  have hrank := Category.rank_lt_of_isKeyword (List.mem_filter.mp hx).2 hk
  rw [Bool.eq_iff_iff, Token.before_iff, decide_eq_true_eq]
  omega

/-- A marker that starts with a bracket stands behind it. -/
lemma markers_before_bracket {before after : List Token} {t : Token}
    (h : l.scan text = before ++ t :: after) (hb : t.category.isBracket = true) :
    before.filter (·.category.isMarker) =
      ((l.scan text).filter (·.category.isMarker)).filter (fun x => x.start < t.start) := by
  rw [markers_before h (Category.not_isMarker_of_isBracket hb)]
  apply List.filter_congr
  intro x hx
  have hrank := Category.rank_lt_of_isBracket (List.mem_filter.mp hx).2 hb
  rw [Bool.eq_iff_iff, Token.before_iff, decide_eq_true_eq]
  omega

/-- Regions in order: each has its first marker no later than its last one, and ends
before the next begins. -/
structure InOrder (ms : List Match) : Prop where
  inside : ∀ m ∈ ms, m.firstMarker.start ≤ m.lastMarker.start
  apart : ms.Pairwise fun a b => a.lastMarker.start < b.firstMarker.start

lemma find_inOrder (r : Regions) (text : List Char) : InOrder (r.find text) where
  inside m hm := by
    obtain ⟨_, _, _, hmarked⟩ := Regions.find_marked hm
    exact hmarked.first_le_last
  apart := by
    apply (Regions.find_pairwise r text).imp_of_mem
    intro a b ha _ hab
    obtain ⟨_, _, _, hmarked⟩ := Regions.find_marked ha
    exact hmarked.last_lt_stop.trans_le hab

/-- Of regions in order, the markers up to a bound end inside a region exactly if the bound cuts
that region in two. -/
lemma hidden_iff {ms : List Match} (h : InOrder ms) {P : Nat → Prop} [DecidablePred P]
    (hP : ∀ a b, a ≤ b → P b → P a) :
    ((ms.flatMap fun m => [m.firstMarker, m.lastMarker]).filter (fun x => P x.start)).foldl
        (fun hidden x => State.hides hidden x.category) false = true ↔
      ∃ m ∈ ms, P m.firstMarker.start ∧ ¬ P m.lastMarker.start := by
  induction ms with
  | nil => simp
  | cons m ms ih =>
    obtain ⟨hinside, hapart⟩ := h
    rw [List.pairwise_cons] at hapart
    have htail : InOrder ms := ⟨fun n hn => hinside n (List.mem_cons_of_mem m hn), hapart.2⟩
    have hm := hinside m List.mem_cons_self
    by_cases hlast : P m.lastMarker.start
    · have hfirst := hP _ _ hm hlast
      have hreset : State.hides (State.hides false m.firstMarker.category) m.lastMarker.category =
          false := rfl
      simp only [List.flatMap_cons, List.cons_append, List.nil_append, List.filter_cons, hfirst,
        hlast, decide_true, if_true, List.foldl_cons, hreset, ih htail, List.mem_cons,
          exists_eq_or_imp, not_true, and_false, false_or]
    · have hlater (n : Match) (hn : n ∈ ms) : ¬ P n.firstMarker.start ∧ ¬ P n.lastMarker.start := by
        have hlt := hapart.1 n hn
        have hle := htail.inside n hn
        exact ⟨fun h => hlast (hP _ _ hlt.le h), fun h => hlast (hP _ _ (hlt.le.trans hle) h)⟩
      have hnone : (ms.flatMap fun m => [m.firstMarker, m.lastMarker]).filter (fun x => P x.start) =
          [] := by
        rw [List.filter_eq_nil_iff]
        intro x hx
        obtain ⟨n, hn, hx⟩ := List.mem_flatMap.mp hx
        rcases List.mem_pair.mp hx with rfl | rfl
        · simpa using (hlater n hn).1
        · simpa using (hlater n hn).2
      have hexists : (∃ n ∈ ms, P n.firstMarker.start ∧ ¬ P n.lastMarker.start) ↔ False :=
        ⟨fun ⟨n, hn, hfirst, _⟩ => (hlater n hn).1 hfirst, False.elim⟩
      simp only [List.flatMap_cons, List.cons_append, List.nil_append, List.filter_cons, hlast,
        decide_false, Bool.false_eq_true, if_false, hnone, List.mem_cons, exists_eq_or_imp,
          not_false_iff, and_true, hexists, or_false]
      by_cases hfirst : P m.firstMarker.start
      · simp only [hfirst, decide_true, if_true, List.foldl_cons, List.foldl_nil, iff_true]
        rfl
      · simp [hfirst]

/-- Behind tokens whose markers are those up to a bound, the machine is inside a region that the
bound cuts in two. -/
lemma ignoring_iff_of_markers (h : Text.isBlank text = false) {P : Nat → Prop} [DecidablePred P]
    (hP : ∀ a b, a ≤ b → P b → P a) {before : List Token}
    (hbefore : before.filter (·.category.isMarker) =
      ((l.scan text).filter (·.category.isMarker)).filter (fun x => P x.start)) :
    (State.feed {} before).mode = .ignore ↔
      ∃ m ∈ l.regions.find text, P m.firstMarker.start ∧ ¬ P m.lastMarker.start := by
  rw [scan_markers h] at hbefore
  rw [← State.ignoring_iff, ← State.ignoring_feed_filter, hbefore, State.ignoring_feed]
  exact hidden_iff (find_inOrder l.regions text) hP

lemma keyword_hidden_iff {before after : List Token} {t : Token}
    (hblank : Text.isBlank text = false) (h : l.scan text = before ++ t :: after)
    (hk : t.category.isKeyword = true) :
    (State.feed {} before).mode = .ignore ↔
      ∃ m ∈ l.regions.find text, m.firstMarker.start ≤ t.start ∧ t.start < m.lastMarker.start := by
  have hiff :=
    ignoring_iff_of_markers hblank (fun a b hab hb => hab.trans hb) (markers_before_keyword h hk)
  simpa only [not_le] using hiff

lemma bracket_hidden_iff {before after : List Token} {t : Token}
    (hblank : Text.isBlank text = false) (h : l.scan text = before ++ t :: after)
    (hb : t.category.isBracket = true) :
    (State.feed {} before).mode = .ignore ↔
      ∃ m ∈ l.regions.find text, m.firstMarker.start < t.start ∧ t.start ≤ m.lastMarker.start := by
  have hiff :=
    ignoring_iff_of_markers hblank (fun a b hab hb => hab.trans_lt hb) (markers_before_bracket h hb)
  simpa only [not_lt] using hiff

lemma mode_at_end (hblank : Text.isBlank text = false) :
    (State.feed {} (l.scan text)).mode ≠ .ignore := by
  have hall : (l.scan text).filter (·.category.isMarker) =
      ((l.scan text).filter (·.category.isMarker)).filter (fun _ => True) := by simp
  have hiff := ignoring_iff_of_markers (P := fun _ => True) hblank (fun _ _ _ _ => trivial) hall
  rw [Ne, hiff]
  simp

/-- What a stream shows of regions: where their markers stand, and which tokens are
read inside a region. -/
structure Shows (ts : List Token) (text : List Char) (ms : List Match) : Prop where
  /-- The markers of the stream are the first and the last marker of each region, one
  region after the other. -/
  markers : ts.filter (·.category.isMarker) = ms.flatMap fun m => [m.firstMarker, m.lastMarker]
  marked : ∀ m ∈ ms, ∃ front inside back, m.Marked text front inside back
  disjoint : ms.Pairwise fun a b => a.stop.offset ≤ b.start.offset
  inOrder : InOrder ms
  keyword : ∀ before t after, ts = before ++ t :: after → t.category.isKeyword = true →
    ((State.feed {} before).mode = .ignore ↔ ∃ m ∈ ms, m.firstMarker.start ≤ t.start ∧
      t.start < m.lastMarker.start)
  bracket : ∀ before t after, ts = before ++ t :: after → t.category.isBracket = true →
    ((State.feed {} before).mode = .ignore ↔ ∃ m ∈ ms, m.firstMarker.start < t.start ∧
      t.start ≤ m.lastMarker.start)
  ending : (State.feed {} ts).mode ≠ .ignore

/-- Whatever the patterns of a language, the stream of a text shows the regions of the text: a
keyword is read inside a region from its first character to the one before its last, a bracket from
the second to the last. -/
theorem scan_shows (l : Language) {text : List Char} (h : Text.isBlank text = false) :
    Shows (l.scan text) text (l.regions.find text) where
  markers := scan_markers h
  marked _ hm := Regions.find_marked hm
  disjoint := Regions.find_pairwise l.regions text
  inOrder := find_inOrder l.regions text
  keyword _ _ _ hsplit hk := keyword_hidden_iff h hsplit hk
  bracket _ _ _ hsplit hb := bracket_hidden_iff h hsplit hb
  ending := mode_at_end h

/-- Blocks between braces, with comments to the end of the line. -/
def braceProfile : Profile where
  openKeywords := ["\\\x7b"]
  closeKeywords := ["\\\x7d"]
  regions := [.line "#"]

def braces : Language where
  id := "braces"
  openKeywords := keywordPattern '\x7b'
  closeKeywords := keywordPattern '\x7d'
  neutralKeywords := .never
  regions := ⟨.never, .seq (.one (.letter '#')) (.run (.compl (.single '\n')) 0 none true)⟩
  comprehensions := ⟨.never, .never⟩
where
  keywordPattern (c : Char) : Pattern :=
    .seq (.seq (.look .textStart) (.group Keyword.groupName (.one (.letter c))))
      (.alt (.one .space) (.look .textEnd))

/-- A block with a comment inside that ends with a closing brace. -/
def bracesText : List Char := ['\x7b', '\n', '#', ' ', '\x7d', '\n', '\x7d']

theorem scan_shows_braces :
    Text.isBlank bracesText = false ∧ (braces.regions.find bracesText).map Match.span = [⟨2, 5⟩] ∧
      Shows (braces.scan bracesText) bracesText (braces.regions.find bracesText) :=
  ⟨by decide, by decide +kernel, scan_shows braces (by decide)⟩

lemma keyword_in_text {t : Token} (h : t ∈ l.scan text) (hk : t.category.isKeyword = true) :
    t.start < t.stop ∧ Text.Boundary text t.start := by
  obtain ⟨p, -, front, rest, hfound⟩ := found_of_mem_keywords (mem_keywords_of_mem_scan h hk)
  exact ⟨hfound.start_lt_stop, front, rest, hfound.text, hfound.start⟩

lemma keyword_start_ne {before after : List Token} {t x : Token}
    (h : l.scan text = before ++ t :: after) (hk : t.category.isKeyword = true)
    (hx : x ∈ before ++ after) (hxk : x.category.isKeyword = true) :
    x.start ≠ t.start := by
  have hpairs := scan_keywords_pairwise l text
  rw [h, List.filter_append, List.filter_cons_of_pos (by simpa using hk), List.pairwise_append,
    List.pairwise_cons] at hpairs
  obtain ⟨-, ⟨hafter, -⟩, hbefore⟩ := hpairs
  have htext : t ∈ l.scan text := by simp [h]
  have hxtext : x ∈ l.scan text := by
    rw [h]
    rcases List.mem_append.mp hx with hx | hx <;> simp [hx]
  have ht := (keyword_in_text htext hk).1
  have hx' := (keyword_in_text hxtext hxk).1
  rcases List.mem_append.mp hx with hx | hx
  · have hle := hbefore x (List.mem_filter.mpr ⟨hx, by simpa using hxk⟩) t List.mem_cons_self
    omega
  · have hle := hafter x (List.mem_filter.mpr ⟨hx, by simpa using hxk⟩)
    omega

lemma colored_iff {before after : List Token} {t : Token} (h : l.scan text = before ++ t :: after)
    (hk : t.category.isKeyword = true) (slots : Nat) :
    (∃ a ∈ (run {} (l.scan text)).map fun (t,
      depth) => (⟨t.start, t.length, depth % slots⟩ : Assignment),
        a.start = t.start ∧ a.length = t.length) ↔
      ((State.feed {} before).step t.category).1 ≠ none := by
  have hother (s : State) (ts : List Token) (hts : ∀ x ∈ ts, x ∈ before ++ after) (u : Token × Nat)
      (hu : u ∈ run s ts) : u.1.start ≠ t.start := by
    have hmem := (run_sublist s ts).subset (List.mem_map_of_mem hu)
    obtain ⟨hmem, hukey⟩ := List.mem_filter.mp hmem
    exact keyword_start_ne h hk (hts u.1 hmem) hukey
  rw [h, run_append]
  constructor
  · rintro ⟨a, ha, hstart, -⟩ hnone
    obtain ⟨u, hu, rfl⟩ := List.mem_map.mp ha
    rcases List.mem_append.mp hu with hu | hu
    · exact hother _ _ (fun x hx => List.mem_append_left _ hx) u hu hstart
    · rcases hs : (State.feed {} before).step t.category with ⟨_ | depth, s⟩
      · simp only [run, hs] at hu
        exact hother _ _ (fun x hx => List.mem_append_right _ hx) u hu hstart
      · simp [hs] at hnone
  · intro hsome
    rcases hs : (State.feed {} before).step t.category with ⟨_ | depth, s⟩
    · simp [hs] at hsome
    · refine ⟨⟨t.start, t.length, depth % slots⟩, List.mem_map.mpr ⟨(t, depth), ?_, rfl⟩, rfl, rfl⟩
      apply List.mem_append_right
      simp [run, hs]

lemma not_blank_of_split {before after : List Token} {t : Token}
    (h : l.scan text = before ++ t :: after) :
    Text.isBlank text = false := by
  by_contra hblank
  rw [scan, if_pos (by simpa using hblank)] at h
  simp at h

/-- At the last character of a region the markers of the region are the latest in
front of a keyword. -/
lemma markers_up_to_last {before after : List Token} {t : Token} {m : Match}
    (h : l.scan text = before ++ t :: after) (hk : t.category.isKeyword = true)
    (hm : m ∈ l.regions.find text) (hlast : t.start = m.lastMarker.start) :
    ∃ done, before.filter (·.category.isMarker) = done ++ [m.firstMarker] ++ [m.lastMarker] := by
  obtain ⟨hinside, hapart⟩ := find_inOrder l.regions text
  obtain ⟨earlier, later, hsplit⟩ := List.append_of_mem hm
  rw [hsplit] at hinside hapart
  rw [List.pairwise_append, List.pairwise_cons] at hapart
  have hfirst := hinside m (by simp)
  have hlater :
      (later.flatMap fun m => [m.firstMarker, m.lastMarker]).filter (fun x => x.start ≤ t.start) =
      [] := by
    rw [List.filter_eq_nil_iff]
    intro x hx
    obtain ⟨n, hn, hx⟩ := List.mem_flatMap.mp hx
    have hlt := hapart.2.1.1 n hn
    have hle := hinside n (by simp [hn])
    rw [decide_eq_true_eq, hlast]
    rcases List.mem_pair.mp hx with rfl | rfl <;> omega
  refine ⟨(earlier.flatMap fun m => [m.firstMarker, m.lastMarker]).filter
    (fun x => x.start ≤ t.start), ?_⟩
  rw [markers_before_keyword h hk, scan_markers (not_blank_of_split h), hsplit, List.flatMap_append,
    List.flatMap_cons, List.filter_append, List.filter_append, hlater]
  simp [hlast, hfirst]

/-- Between the last marker of a region and a keyword that starts with it stand markers only. -/
lemma isMarker_behind_last {inner post after : List Token} {t x : Token} {m : Match}
    (h : l.scan text = inner ++ m.lastMarker :: post ++ t :: after)
    (hk : t.category.isKeyword = true) (hlast : t.start = m.lastMarker.start) (hx : x ∈ post) :
    x.category.isMarker = true := by
  have hxt := Token.before_iff.mp ((before_of_split h).1 x (by simp [hx]))
  have hsplit : l.scan text = inner ++ m.lastMarker :: (post ++ t :: after) := by simpa using h
  have hmx := Token.before_iff.mp ((before_of_split hsplit).2 x (by simp [hx]))
  have hstart : x.start = t.start := by omega
  have hrank : Category.rank .closeIgnore ≤ x.category.rank := by
    have hc : m.lastMarker.category = .closeIgnore := rfl
    rw [hc] at hmx
    omega
  have hnot : x.category.isKeyword = false := by
    by_contra hxk
    exact keyword_start_ne h hk (by simp [hx]) (by simpa using hxk) hstart
  cases hc : x.category <;>
    simp [hc, Category.rank, Category.isMarker, Category.isKeyword] at hrank hnot ⊢

/-- At the last character of a region the machine has left the region. -/
lemma mode_at_last {before after : List Token} {t : Token} {m : Match}
    (h : l.scan text = before ++ t :: after) (hk : t.category.isKeyword = true)
    (hm : m ∈ l.regions.find text) (hlast : t.start = m.lastMarker.start) :
    (State.feed {} before).mode = .default := by
  obtain ⟨done, hdone⟩ := markers_up_to_last h hk hm hlast
  obtain ⟨inner, rest, rfl, hinner, hrest⟩ := List.filter_eq_append_iff.mp hdone
  obtain ⟨pre, post, rfl, hpre, -, hpost⟩ := List.filter_eq_cons_iff.mp hrest
  rw [← List.append_assoc] at h ⊢
  have hnil : post = [] := by
    apply List.eq_nil_iff_forall_not_mem.mpr
    intro x hx
    have hmarker := isMarker_behind_last h hk hlast hx
    exact List.filter_eq_nil_iff.mp hpost x hx hmarker
  have hhidden : (State.feed {} (inner ++ pre)).mode = .ignore := by
    have hfilter : (inner ++ pre).filter (·.category.isMarker) = done ++ [m.firstMarker] := by
      rw [List.filter_append, hinner, List.filter_eq_nil_iff.mpr hpre, List.append_nil]
    rw [← State.ignoring_iff, ← State.ignoring_feed_filter, hfilter, State.ignoring_feed,
      List.foldl_append]
    rfl
  have hclose : m.lastMarker.category = .closeIgnore := rfl
  rw [hnil, State.feed_append, State.feed_cons, State.feed_nil]
  simp [State.step, hhidden, hclose]

lemma start_le_last {t : Token} {m : Match} (ht : t ∈ l.scan text)
    (hk : t.category.isKeyword = true) (hm : m ∈ l.regions.find text)
    (hstop : t.stop ≤ m.stop.offset) : t.start ≤ m.lastMarker.start := by
  obtain ⟨hlt, hboundary⟩ := keyword_in_text ht hk
  obtain ⟨front, inside, back, hmarked⟩ := Regions.find_marked hm
  exact hmarked.boundary_le_last hboundary (hlt.trans_le hstop)

/-- A keyword inside a region is coloured, or changes the depth, exactly if it starts at the last
character of the region and would be coloured, or would change the depth, at the same depth
outside any region. -/
theorem colored_inside_region_iff {l : Language} {text : List Char} {before after : List Token}
    {t : Token} {m : Match} {slots : Nat} (hslots : 0 < slots)
    (h : l.scan text = before ++ t :: after) (hk : t.category.isKeyword = true)
    (hm : m ∈ l.regions.find text) (hstart : m.start.offset ≤ t.start)
    (hstop : t.stop ≤ m.stop.offset) :
    ∃ as, classify (l.scan text) slots = .ok as ∧
      ((∃ a ∈ as, a.start = t.start ∧ a.length = t.length) ↔
        t.start = m.lastMarker.start ∧ (t.category = .neutral → 0 < (State.feed {} before).depth)) ∧
      ((State.feed {} (before ++ [t])).depth ≠ (State.feed {} before).depth ↔
        t.start = m.lastMarker.start ∧
          (t.category = .openBlock ∨ t.category = .closeBlock ∧
            0 < (State.feed {} before).depth)) := by
  refine ⟨_, classify_eq hslots, ?_⟩
  rw [colored_iff h hk, State.feed_append, State.feed_cons, State.feed_nil]
  have ht : t ∈ l.scan text := by simp [h]
  rcases (start_le_last ht hk hm hstop).lt_or_eq with hlt | hlast
  · have hmode := (keyword_hidden_iff (not_blank_of_split h) h hk).mpr ⟨m, hm, hstart, hlt⟩
    simp [State.step_of_ignoring hmode hk, hlt.ne]
  · have hmode := mode_at_last h hk hm hlast
    generalize State.feed {} before = s at hmode ⊢
    rcases s with ⟨mode, depth⟩
    obtain rfl : mode = .default := hmode
    cases hc : t.category with
    | openBlock => simp [State.step, hlast]
    | closeBlock =>
      simp [State.step, hlast]
      omega
    | neutral => simp [State.step, hlast, Nat.pos_iff_ne_zero]
    | _ => simp [hc, Category.isKeyword] at hk

def commentBrace : Token := ⟨4, 1, .closeBlock⟩

def comment : Match := ⟨⟨some '\n', bracesText.drop 2, 2⟩, ⟨some '\x7d', bracesText.drop 5, 5⟩, []⟩

lemma scan_bracesText : braces.scan bracesText =
    [⟨0, 1, .openBlock⟩, ⟨2, 1, .openIgnore⟩, ⟨4, 1, .closeIgnore⟩] ++ commentBrace ::
      [⟨6, 1, .closeBlock⟩] := by cbv

open scoped Dialect.Standard

/-- A brace that ends a comment is coloured, and the brace that closes the block comes too late. -/
theorem comment_brace_colored :
    compile "braces" braceProfile = .ok braces ∧
      (braces.regions.find bracesText).map Match.span = [⟨2, 5⟩] ∧
      commentBrace ∈ braces.scan bracesText ∧
      classify (braces.scan bracesText) 3 = .ok [⟨0, 1, 0⟩, ⟨4, 1, 0⟩, ⟨6, 1, 0⟩] := by
  refine ⟨by decide +kernel, by decide +kernel, ?_, ?_⟩
  · simp [scan_bracesText]
  · rw [scan_bracesText]
    decide

theorem colored_inside_comment :
    comment ∈ braces.regions.find bracesText ∧ comment.start.offset ≤ commentBrace.start ∧
      commentBrace.stop ≤ comment.stop.offset ∧
      ∃ as, classify (braces.scan bracesText) 3 = .ok as ∧ ∃ a ∈ as, a.start = 4 ∧
        a.length = 1 := by
  have hmem : comment ∈ braces.regions.find bracesText := by decide +kernel
  obtain ⟨as, has, hcolored, -⟩ :=
    colored_inside_region_iff (by decide : 0 < 3) scan_bracesText (by decide) hmem
      (by decide) (by decide)
  exact ⟨hmem, by decide, by decide, as, has, hcolored.mpr ⟨by decide, by decide⟩⟩

end Language
end BlockHue
