import BlockHue.Proofs.Cached
import BlockHue.Proofs.Pattern.Nearest
import BlockHue.Proofs.Pattern.Read.Literal

/-! Regions with literal delimiters. A lexer walks through a text from left to right: where the text
goes on with the opening text of a block and the closing text comes later, it takes the block up to
the nearest closing text; else, where a line region opens, it takes the rest of the line. Main
statement: the regions whose delimiters are literal text are those of the lexer. -/
namespace BlockHue

/-- How regions of one kind begin and end. -/
inductive Lexer.Rule
  /-- From an opening text to the nearest closing text behind it. -/
  | block (opening closing : List Char)
  /-- From an opening text to the end of the line. -/
  | line (opening : List Char)
  deriving DecidableEq, Repr

namespace Lexer
namespace Rule

/-- The length of the block that a text begins with; `none` if it is not opened here or never
closed. -/
def blockAt? (rest : List Char) : Rule → Option Nat
  | block opening closing =>
    if opening.isPrefixOf rest then
      ((rest.drop opening.length).tails.findIdx? closing.isPrefixOf).map fun k =>
        opening.length + k + closing.length
    else none
  | line _ => none

def lineAt (rest : List Char) : Rule → Bool
  | block _ _ => false
  | line opening => opening.isPrefixOf rest

/-- Reads a rule off a region whose delimiters are literal. -/
def ofRegion? (r : Region) : Option Rule :=
  (Pattern.Read.literal? r.opening.toList).bind fun opening =>
    if r.singleLine then some (line opening)
    else (Pattern.Read.literal? (r.closing.getD r.opening).toList).map (block opening)

def region : Rule → Region
  | block opening closing =>
    { opening := String.ofList (Pattern.Read.escaped opening),
      closing := some (String.ofList (Pattern.Read.escaped closing)) }
  | line opening => .line (String.ofList (Pattern.Read.escaped opening))

lemma ofRegion?_region (rule : Rule) : ofRegion? rule.region = some rule := by
  cases rule with
  | block opening closing => simp [ofRegion?, region, Pattern.Read.literal?_escaped]
  | line opening => simp [ofRegion?, region, Region.line, Pattern.Read.literal?_escaped]

/-- Regions of a rule are not empty, and its line regions open and end in one line. -/
def Proper : Rule → Prop
  | block opening _ => opening ≠ []
  | line opening => opening ≠ [] ∧ '\n' ∉ opening

instance : DecidablePred Proper
  | block opening _ => inferInstanceAs (Decidable (opening ≠ []))
  | line opening => inferInstanceAs (Decidable (opening ≠ [] ∧ '\n' ∉ opening))

end Rule

/-- The region that a text begins with: of the first rule with a block here, else the
rest of the line. -/
def regionAt? (rules : List Rule) (rest : List Char) : Option (List Char) :=
  match rules.findSome? (Rule.blockAt? rest) with
  | some n => some (rest.take n)
  | none => if rules.any (Rule.lineAt rest) then some (rest.takeWhile (· != '\n')) else none

/-- A region is the block of the first rule that has one, or the rest of the line if no rule has
one. -/
lemma regionAt?_eq_some {rules : List Rule} {rest region : List Char}
    (h : regionAt? rules rest = some region) :
    (∃ n, rules.findSome? (Rule.blockAt? rest) = some n ∧ region = rest.take n) ∨
      rules.findSome? (Rule.blockAt? rest) = none ∧ rules.any (Rule.lineAt rest) = true ∧
        region = rest.takeWhile (· != '\n') := by
  unfold regionAt? at h
  split at h
  next n hn => exact .inl ⟨n, hn, (Option.some.inj h).symm⟩
  next hnone =>
    split at h
    next hany => exact .inr ⟨hnone, hany, (Option.some.inj h).symm⟩
    next => contradiction

lemma regionAt?_eq_none {rules : List Rule} {rest : List Char} (h : regionAt? rules rest = none) :
    rules.findSome? (Rule.blockAt? rest) = none ∧ rules.any (Rule.lineAt rest) = false := by
  unfold regionAt? at h
  split at h
  · contradiction
  next hnone => exact ⟨hnone, by simpa using h⟩

namespace Rule
variable {rule : Rule} {rest : List Char}

lemma Proper.take_ne_nil (hproper : rule.Proper) {n : Nat} (h : rule.blockAt? rest = some n) :
    rest.take n ≠ [] := by
  cases rule with
  | line opening => contradiction
  | block opening closing =>
    obtain ⟨c, cs, rfl⟩ := List.exists_cons_of_ne_nil hproper
    rw [blockAt?] at h
    split at h
    next hopens =>
      obtain ⟨k, -, rfl⟩ := Option.map_eq_some_iff.mp h
      obtain ⟨back, rfl⟩ := List.isPrefixOf_iff_prefix.mp hopens
      simp
    next => contradiction

lemma Proper.takeWhile_ne_nil (hproper : rule.Proper) (h : rule.lineAt rest = true) :
    rest.takeWhile (· != '\n') ≠ [] := by
  cases rule with
  | block opening closing => contradiction
  | line opening =>
    obtain ⟨hne, hnewline⟩ := hproper
    obtain ⟨c, cs, rfl⟩ := List.exists_cons_of_ne_nil hne
    obtain ⟨back, rfl⟩ := List.isPrefixOf_iff_prefix.mp h
    have hc : c ≠ '\n' := fun heq => hnewline (heq ▸ List.mem_cons_self)
    simp [hc]

end Rule

lemma regionAt?_spec {rules : List Rule} (hproper : ∀ rule ∈ rules, rule.Proper)
    {rest region : List Char} (h : regionAt? rules rest = some region) :
    region <+: rest ∧ region ≠ [] := by
  rcases regionAt?_eq_some h with ⟨n, hn, rfl⟩ | ⟨-, hany, rfl⟩
  · obtain ⟨rule, hrule, hblock⟩ := List.exists_of_findSome?_eq_some hn
    exact ⟨List.take_prefix _ _, (hproper rule hrule).take_ne_nil hblock⟩
  · obtain ⟨rule, hrule, hline⟩ := List.any_eq_true.mp hany
    exact ⟨List.takeWhile_prefix _, (hproper rule hrule).takeWhile_ne_nil hline⟩

/-- A part of a text and the offset where it starts. -/
structure Stretch where
  start : Nat
  text : List Char
  deriving DecidableEq, Repr

/-- The markers of a stretch stand at its first and at its last character. -/
def Stretch.markers (s : Stretch) : List Token :=
  match s.text.head?, s.text.getLast? with
  | some first, some last =>
    [⟨s.start, first.utf8Size, .openIgnore⟩,
      ⟨s.start + Text.width s.text.dropLast, last.utf8Size, .closeIgnore⟩]
  | _, _ => []

/-- The regions of the text from an offset on; the walk is inside a region for
`inside` more characters. -/
def regionsFrom (rules : List Rule) : (inside offset : Nat) → (rest : List Char) → List Stretch
  | _, _, [] => []
  | inside + 1, offset, c :: cs => regionsFrom rules inside (offset + c.utf8Size) cs
  | 0, offset, c :: cs =>
    match regionAt? rules (c :: cs) with
    | some region =>
      ⟨offset, region⟩ :: regionsFrom rules (region.length - 1) (offset + c.utf8Size) cs
    | none => regionsFrom rules 0 (offset + c.utf8Size) cs

def regions (rules : List Rule) (text : List Char) : List Stretch := regionsFrom rules 0 0 text

lemma regionsFrom_inside (rules : List Rule) (inside offset : Nat) (rest : List Char) :
    regionsFrom rules inside offset rest =
      regionsFrom rules 0 (offset + Text.width (rest.take inside)) (rest.drop inside) := by
  induction rest generalizing inside offset with
  | nil => simp [regionsFrom]
  | cons c cs ih =>
    cases inside with
    | zero => rfl
    | succ inside => simp [regionsFrom, ih inside, Nat.add_assoc]

/-- Where a region begins, the walk takes it and goes on behind it. -/
lemma regionsFrom_region {rules : List Rule} {region back : List Char}
    (h : regionAt? rules (region ++ back) = some region) (hne : region ≠ []) (offset : Nat) :
    regionsFrom rules 0 offset (region ++ back) =
      ⟨offset, region⟩ :: regionsFrom rules 0 (offset + Text.width region) back := by
  obtain ⟨c, cs, rfl⟩ := List.exists_cons_of_ne_nil hne
  have hinside := regionsFrom_inside rules cs.length (offset + c.utf8Size) (cs ++ back)
  rw [List.take_left, List.drop_left] at hinside
  rw [List.cons_append] at h ⊢
  rw [regionsFrom, h, Text.width_cons, ← Nat.add_assoc, ← hinside]
  rfl

end Lexer

open Pattern Pattern.Read

namespace Lexer

/-- The opening and closing texts of the block rules. -/
def blocks (rules : List Rule) : List (List Char × List Char) :=
  rules.filterMap fun
    | .block opening closing => some (opening, closing)
    | .line _ => none

/-- The opening texts of the line rules. -/
def lines (rules : List Rule) : List (List Char) :=
  rules.filterMap fun
    | .block _ _ => none
    | .line opening => some opening

def patterns (rules : List Rule) : Regions :=
  .ofDelimiters true ((blocks rules).map fun d => (⟨false, d.1⟩, ⟨false, d.2⟩))
    ((lines rules).map (Delimiter.mk false))

lemma patterns_block (rules : List Rule) :
    (patterns rules).block =
      choice ((blocks rules).map fun d => block true ⟨false, d.1⟩ ⟨false, d.2⟩) := by
  rw [patterns, Regions.ofDelimiters, List.map_map]
  rfl

def taking (place : Place) (n : Nat) : Match := ⟨place, (Thread.advance n { place }).place, []⟩

variable {rules : List Rule} {place : Place}

/-- The preferred thread of all blocks is that of the first rule that has one. -/
lemma head?_threads_blocks (rules : List Rule) (place : Place) :
    (((blocks rules).map fun d => block true ⟨false, d.1⟩ ⟨false, d.2⟩).flatMap
      (·.threads { place })).head? =
      (rules.findSome? (Rule.blockAt? place.rest)).map fun n => Thread.advance n { place } := by
  induction rules with
  | nil => rfl
  | cons rule rules ih =>
    cases rule with
    | line opening => exact ih
    | block a z =>
      have hblocks : blocks (.block a z :: rules) = (a, z) :: blocks rules := rfl
      have hfirst : ((block true ⟨false, a⟩ ⟨false, z⟩).threads { place }).head? =
          ((Rule.block a z).blockAt? place.rest).map fun n => Thread.advance n { place } := by
        rw [head?_threads_block, Rule.blockAt?, apply_ite (Option.map _), Option.map_map]
        rfl
      rw [hblocks, List.map_cons, List.flatMap_cons, List.head?_append, ih, hfirst,
        List.findSome?_cons]
      cases (Rule.block a z).blockAt? place.rest <;> rfl

/-- The block pattern matches where a block begins, and takes that of the first rule. -/
lemma matchAt?_block (rules : List Rule) (place : Place) :
    (patterns rules).block.matchAt? place =
      (rules.findSome? (Rule.blockAt? place.rest)).map (taking place) := by
  rw [matchAt?_eq, patterns_block, threads_choice, head?_threads_blocks, Option.map_map]
  congr 1
  funext n
  rw [Function.comp_apply, Thread.advance_groups, taking]

lemma any_lines (rules : List Rule) (rest : List Char) :
    (lines rules).any (·.isPrefixOf rest) = rules.any (Rule.lineAt rest) := by
  induction rules with
  | nil => rfl
  | cons rule rules ih =>
    cases rule with
    | line opening => simpa [lines, Rule.lineAt] using congrArg (opening.isPrefixOf rest || ·) ih
    | block a z => exact ih

lemma newline_not_mem_lines (hproper : ∀ rule ∈ rules, rule.Proper) {w : List Char}
    (hw : w ∈ lines rules) : '\n' ∉ w := by
  obtain ⟨rule, hrule, heq⟩ := List.mem_filterMap.mp hw
  cases rule with
  | line opening =>
    obtain rfl := Option.some.inj heq
    exact (hproper _ hrule).2
  | block a z => contradiction

/-- The line pattern matches where a line region begins, and takes the rest of the line. -/
lemma matchAt?_line (hproper : ∀ rule ∈ rules, rule.Proper) (place : Place) :
    (patterns rules).line.matchAt? place =
      if rules.any (Rule.lineAt place.rest) then
        some (taking place (place.rest.takeWhile (· != '\n')).length) else none := by
  have hline : (patterns rules).line = line true ((lines rules).map (Delimiter.mk false)) := rfl
  rw [matchAt?_eq, hline, head?_threads_line fun w => newline_not_mem_lines hproper, any_lines]
  split
  · rw [Option.map_some, Thread.advance_groups, taking]
  · rfl

lemma taking_leads (place : Place) (n : Nat) :
    place.Leads (place.rest.take n) (taking place n).stop :=
  Thread.advance_leads n { place }

lemma earlier_of_regionAt? (hproper : ∀ rule ∈ rules, rule.Proper) {region : List Char}
    (h : regionAt? rules place.rest = some region) :
    ∃ m, Regions.Earlier ((patterns rules).block.search? place)
      ((patterns rules).line.search? place) m ∧
      m.start = place ∧ place.Leads region m.stop := by
  have hblock := matchAt?_block rules place
  rcases regionAt?_eq_some h with ⟨n, hn, rfl⟩ | ⟨hnone, hany, rfl⟩
  · rw [hn, Option.map_some] at hblock
    exact ⟨_, Regions.earlier_of_block hblock, rfl, taking_leads place n⟩
  · have hline := matchAt?_line hproper place
    have hleads := taking_leads place (place.rest.takeWhile (· != '\n')).length
    rw [hnone, Option.map_none] at hblock
    rw [if_pos hany] at hline
    rw [← List.prefix_iff_eq_take.mp (List.takeWhile_prefix _)] at hleads
    exact ⟨_, Regions.earlier_of_line hblock hline, rfl, hleads⟩

lemma matchAt?_eq_none (hproper : ∀ rule ∈ rules, rule.Proper)
    (h : regionAt? rules place.rest = none) :
    (patterns rules).block.matchAt? place = none ∧ (patterns rules).line.matchAt? place = none := by
  obtain ⟨hblock, hline⟩ := regionAt?_eq_none h
  rw [matchAt?_block, matchAt?_line hproper, hblock, hline]
  exact ⟨rfl, rfl⟩

lemma markers_eq {m : Match} {region : List Char} (hstart : m.start = place)
    (hleads : place.Leads region m.stop) (hne : region ≠ []) :
    Regions.markers m = Stretch.markers ⟨place.offset, region⟩ := by
  subst hstart
  obtain ⟨c, cs, hhead⟩ := List.exists_cons_of_ne_nil hne
  obtain ⟨init, d, rfl⟩ := List.eq_nil_or_concat' region |>.resolve_left hne
  have hrest : m.start.rest = c :: (cs ++ m.stop.rest) := by rw [hleads.rest, hhead]; rfl
  have hbefore : m.stop.before = some d := by rw [hleads.before]; simp
  have hfirst : (init ++ [d]).head? = some c := by rw [hhead]; rfl
  have hstop : m.stop.offset - d.utf8Size = m.start.offset + Text.width init := by
    rw [hleads.offset]
    simp only [Text.width_append, Text.width_cons, Text.width_nil]
    omega
  simp [Regions.markers, Stretch.markers, hrest, hbefore, hfirst, hstop]

/-- Where no region begins, a search afresh goes on with the next character. -/
lemma afreshRun_next (hproper : ∀ rule ∈ rules, rule.Proper) {ms : List Match}
    (hend : place.atEnd = false) (hnone : regionAt? rules place.rest = none)
    (h : (patterns rules).AfreshRun place ms) :
    (patterns rules).AfreshRun place.next ms := by
  obtain ⟨hblock, hline⟩ := matchAt?_eq_none hproper hnone
  have hblock' := search?_next hblock hend
  have hline' := search?_next hline hend
  cases hnext : place.next.atEnd with
  | false =>
    cases h with
    | atEnd hatEnd => simp [hend] at hatEnd
    | nothing _ hblock hline => exact .nothing hnext (hblock' ▸ hblock) (hline' ▸ hline)
    | found _ hm hne tail => exact .found hnext (hblock' ▸ hline' ▸ hm) hne tail
    | empty _ hm hempty tail => exact .empty hnext (hblock' ▸ hline' ▸ hm) hempty tail
  | true =>
    have hlast : regionAt? rules place.next.rest = none := by
      rw [Option.eq_none_iff_forall_ne_some]
      intro region hregion
      obtain ⟨hbegins, hne⟩ := regionAt?_spec hproper hregion
      rw [List.isEmpty_iff.mp hnext, List.prefix_nil] at hbegins
      exact hne hbegins
    obtain ⟨hblockLast, hlineLast⟩ := matchAt?_eq_none hproper hlast
    rw [search?_atEnd hblockLast hnext] at hblock'
    rw [search?_atEnd hlineLast hnext] at hline'
    cases h with
    | atEnd _ => exact .atEnd hnext
    | nothing _ _ _ => exact .atEnd hnext
    | found _ hm _ _ =>
      rw [hblock', hline'] at hm
      contradiction
    | empty _ hm _ _ =>
      rw [hblock', hline'] at hm
      contradiction

/-- Where a region begins, a search afresh takes it and goes on behind it. -/
lemma afreshRun_region (hproper : ∀ rule ∈ rules, rule.Proper) {ms : List Match}
    {region : List Char} (hend : place.atEnd = false)
    (hregion : regionAt? rules place.rest = some region)
    (h : (patterns rules).AfreshRun place ms) :
    ∃ m tail, ms = m :: tail ∧ m.isEmpty = false ∧ m.start = place ∧ place.Leads region m.stop ∧
      (patterns rules).AfreshRun m.stop tail := by
  obtain ⟨m, hm, hstart, hleads⟩ := earlier_of_regionAt? hproper hregion
  obtain ⟨-, hne⟩ := regionAt?_spec hproper hregion
  have hpos := Text.width_pos hne
  have hfull : m.isEmpty = false := by
    simp only [Match.isEmpty, hstart, hleads.offset, beq_eq_false_iff_ne]
    omega
  cases h with
  | atEnd hatEnd => simp [hend] at hatEnd
  | nothing _ hblock hline =>
    rw [hblock, hline] at hm
    contradiction
  | empty _ hm' hempty _ =>
    obtain rfl := hm.unique hm'
    simp [hfull] at hempty
  | found _ hm' _ tail =>
    obtain rfl := hm.unique hm'
    exact ⟨m, _, rfl, hfull, hstart, hleads, tail⟩

/-- A search afresh from a place marks the regions of the lexer from there on. The search
goes from match to match and the lexer from character to character, so the induction is on
the rest of the text. -/
lemma markers_of_afreshRun (hproper : ∀ rule ∈ rules, rule.Proper) {ms : List Match}
    (h : (patterns rules).AfreshRun place ms) :
    (ms.filter (!·.isEmpty)).flatMap Regions.markers =
      (regionsFrom rules 0 place.offset place.rest).flatMap Stretch.markers := by
  induction hlength : place.rest.length using Nat.strong_induction_on generalizing place ms with
  | _ length ih =>
    subst hlength
    cases hend : place.atEnd with
    | true =>
      have hrest : place.rest = [] := List.isEmpty_iff.mp hend
      cases h with
      | atEnd _ => rw [hrest]; rfl
      | nothing hne _ _ => simp [hend] at hne
      | found hne _ _ _ => simp [hend] at hne
      | empty hne _ _ _ => simp [hend] at hne
    | false =>
      cases hregion : regionAt? rules place.rest with
      | none =>
        have htail := ih _ (Place.length_next_lt hend) (afreshRun_next hproper hend hregion h) rfl
        obtain ⟨c, cs, hrest⟩ := List.exists_cons_of_ne_nil (List.isEmpty_eq_false_iff.mp hend)
        have hoffset : place.next.offset = place.offset + c.utf8Size := by simp [Place.next, hrest]
        have hnext : place.next.rest = cs := by simp [Place.next, hrest]
        rw [hrest] at hregion
        rw [htail, hoffset, hnext, hrest, regionsFrom, hregion]
      | some region =>
        obtain ⟨m, tail, rfl, hfull, hstart, hleads, hrun⟩ :=
          afreshRun_region hproper hend hregion h
        obtain ⟨-, hne⟩ := regionAt?_spec hproper hregion
        have hpos := Text.width_pos hne
        have hahead : place.Ahead m.stop := ⟨region, hleads⟩
        have htail := ih _ (hahead.length_lt (by rw [hleads.offset]; omega)) hrun rfl
        rw [hleads.rest] at hregion
        rw [hleads.rest, regionsFrom_region hregion hne, ← hleads.offset, List.flatMap_cons,
          ← htail, ← markers_eq hstart hleads hne]
        simp [hfull]

lemma tokens_patterns (hproper : ∀ rule ∈ rules, rule.Proper) (text : List Char) :
    (patterns rules).tokens text = (regions rules text).flatMap Stretch.markers := by
  have hrun : (patterns rules).AfreshRun (Place.front text) _ :=
    Regions.afreshRun_findAfreshFrom (Nat.lt_succ_self _)
  rw [Regions.tokens, Regions.find_eq_findAfresh, Regions.findAfresh]
  exact markers_of_afreshRun hproper hrun

end Lexer

namespace Regions

section
variable [Dialect]

lemma denotes_blockSource {r : Region} {a z : List Char} (ha : literal? r.opening.toList = some a)
    (hz : literal? (r.closing.getD r.opening).toList = some z) :
    Denotes true 3 (blockSource r) (Pattern.block true ⟨false, a⟩ ⟨false, z⟩) := by
  have hopening : Denotes true 0 r.opening.toList (word true a) := denotes_literal ha
  have hclosing : Denotes true 0 (r.closing.getD r.opening).toList (word true z) :=
    denotes_literal hz
  obtain ⟨i, hi, hopening⟩ := hopening.group
  obtain ⟨j, hj, hclosing⟩ := hclosing.group
  have hmiddle (level : Level) (frames : List Frame) (names : List String) :
      Reads (inside true frames names level) "(?s:.*?)".toList
        (inside true frames names (level.push (run .any 0 none false) 2)) :=
    ⟨4, by decide, fun _ _ => rfl⟩
  have hsource : blockSource r = "(?:".toList ++ r.opening.toList ++ ")".toList ++
      "(?s:.*?)".toList ++ ("(?:".toList ++ (r.closing.getD r.opening).toList ++ ")".toList) := by
    simp [blockSource]
  refine ⟨((({} : Level).push (word true a) i).push (run .any 0 none false) 2).push (word true z) j,
    rfl, ?_, ?_⟩
  · exact (((Level.low_empty 3).push _ hi).push _ (by decide)).push _ hj
  · intro frames names
    rw [hsource]
    exact ((hopening _ frames names).append (hmiddle _ frames names)).append
      (hclosing _ frames names)

/-- The text of the line regions is parsed as their pattern. The dot and the star have to come last
for it, since a question mark behind them would change them. -/
lemma parse?_lineWrap {n : Nat} {source : List Char} {p : Pattern} (h : Denotes true n source p)
    (hn : n + 5 ≤ heightLimit) :
    parse? (!true) (lineWrap source) = some (seq p (run (.compl (.single '\n')) 0 none true)) := by
  obtain ⟨height, hheight, hgroup⟩ := h.group
  obtain ⟨k, hk, hsteps⟩ := hgroup {} [] []
  set level : Level := (({} : Level).push p height).push (run (.compl (.single '\n')) 0 none true) 1
  have hsource : lineWrap source = "(?:".toList ++ source ++ ")".toList ++ ".*".toList := by
    simp [lineWrap]
  have hend : steps (k + 2 + 1) (start (!true)) (lineWrap source) =
      some (inside true [] [] level) := by
    rw [hsource, Nat.add_assoc, Nat.add_comm]
    exact hsteps 3 ".*".toList
  have hlength : k + 2 ≤ (lineWrap source).length := by
    rw [hsource, List.length_append]
    exact Nat.add_le_add_right hk 2
  have hlow : level.Low (n + 3) := ((Level.low_empty (n + 3)).push _ hheight).push _ (by omega)
  exact parse?_of_steps hlength hend (hlow.whole.trans hn)

/-- There are texts of regions, and the dialect has no room for the text that they are joined to. -/
def TooLarge (wrap : List Char → List Char) (sources : List (List Char)) : Prop :=
  sources ≠ [] ∧ Dialect.fits false (wrap (alternation sources)) = false

instance (wrap : List Char → List Char) (sources : List (List Char)) :
    Decidable (TooLarge wrap sources) :=
  inferInstanceAs (Decidable (_ ∧ _))

lemma not_tooLarge_nil (wrap : List Char → List Char) : ¬TooLarge wrap [] := fun h => h.1 rfl

lemma readAll?_of_parse? {wrap : List Char → List Char} {sources : List (List Char)}
    (hne : sources ≠ []) {p : Pattern} (h : parse? (!true) (wrap (alternation sources)) = some p) :
    readAll? true wrap sources = if TooLarge wrap sources then none else some p := by
  rw [readAll?, List.isEmpty_eq_false_iff.mpr hne, read?, h]
  cases hfits : Dialect.fits (!true) (wrap (alternation sources)) with
  | true =>
    have hroom : ¬TooLarge wrap sources :=
      fun hlarge => Bool.noConfusion (hfits.symm.trans hlarge.2)
    rw [if_neg hroom]
    rfl
  | false =>
    have hlarge : TooLarge wrap sources := ⟨hne, hfits⟩
    rw [if_pos hlarge]
    rfl

lemma readAll?_id {n : Nat} {sources : List (List Char)} {ps : List Pattern}
    (h : List.Forall₂ (Denotes true n) sources ps) (hn : n + 5 ≤ heightLimit) :
    readAll? true id sources = if TooLarge id sources then none else some (choice ps) := by
  cases h with
  | nil =>
    rw [if_neg (not_tooLarge_nil id)]
    rfl
  | cons hsource hsources =>
    have hdenotes := denotes_alternation (List.cons_ne_nil _ _) (.cons hsource hsources)
    exact readAll?_of_parse? (List.cons_ne_nil _ _) (hdenotes.parse? hn)

lemma readAll?_lineWrap {sources ws : List (List Char)}
    (h : List.Forall₂ (Denotes true 0) sources (ws.map (word true))) :
    readAll? true lineWrap sources =
      if TooLarge lineWrap sources then none
      else some (Pattern.line true (ws.map (Delimiter.mk false))) := by
  cases ws with
  | nil =>
    obtain rfl := List.forall₂_nil_right_iff.mp h
    rw [if_neg (not_tooLarge_nil lineWrap)]
    rfl
  | cons w ws =>
    have hne : sources ≠ [] := by
      rintro rfl
      contradiction
    rw [line_words]
    exact readAll?_of_parse? hne (parse?_lineWrap (denotes_alternation hne h) (by decide))

/-- Each block region denotes the pattern of its rule, and each opening text of a line region
that of its rule. -/
lemma denotes_rules {rs : List Region} {rules : List Lexer.Rule}
    (h : rs.mapM Lexer.Rule.ofRegion? = some rules) :
    List.Forall₂ (Denotes true 3) ((rs.filter (!·.singleLine)).map blockSource)
        ((Lexer.blocks rules).map fun d => Pattern.block true ⟨false, d.1⟩ ⟨false, d.2⟩) ∧
      List.Forall₂ (Denotes true 0) ((rs.filter (·.singleLine)).map (·.opening.toList))
        ((Lexer.lines rules).map (word true)) := by
  induction rs generalizing rules with
  | nil =>
    obtain rfl : [] = rules := by simpa using h
    exact ⟨.nil, .nil⟩
  | cons r rs ih =>
    simp only [List.mapM_cons, Option.bind_eq_bind, Option.bind_eq_some_iff, Option.pure_def,
      Option.some.injEq] at h
    obtain ⟨rule, hrule, rules, hrules, rfl⟩ := h
    obtain ⟨hblocks, hlines⟩ := ih hrules
    obtain ⟨a, ha, hrule⟩ := Option.bind_eq_some_iff.mp hrule
    cases hr : r.singleLine with
    | true =>
      obtain rfl : Lexer.Rule.line a = rule := by simpa [hr] using hrule
      rw [List.filter_cons_of_neg (by simp [hr]), List.filter_cons_of_pos hr]
      exact ⟨hblocks, .cons (denotes_literal ha) hlines⟩
    | false =>
      obtain ⟨z, hz, rfl⟩ : ∃ z, literal? (r.closing.getD r.opening).toList = some z ∧
          Lexer.Rule.block a z = rule := by
        simpa [hr] using hrule
      rw [List.filter_cons_of_pos (by simp [hr]), List.filter_cons_of_neg (by simp [hr])]
      exact ⟨.cons (denotes_blockSource ha hz) hblocks, hlines⟩

/-- Regions with literal delimiters have the patterns of their rules, unless their
texts are too large. -/
lemma compile?_rules {rs : List Region} {rules : List Lexer.Rule}
    (h : rs.mapM Lexer.Rule.ofRegion? = some rules) :
    compile? true rs =
      if TooLarge id ((rs.filter (!·.singleLine)).map blockSource) ∨
          TooLarge lineWrap ((rs.filter (·.singleLine)).map (·.opening.toList)) then none
      else some (Lexer.patterns rules) := by
  obtain ⟨hblocks, hlines⟩ := denotes_rules h
  have hblock : (Lexer.patterns rules).block =
      choice ((Lexer.blocks rules).map fun d => Pattern.block true ⟨false, d.1⟩ ⟨false, d.2⟩) :=
    Lexer.patterns_block rules
  have hline : (Lexer.patterns rules).line =
      Pattern.line true ((Lexer.lines rules).map (Delimiter.mk false)) := rfl
  rw [compile?, readAll?_id hblocks (by decide), readAll?_lineWrap hlines, ← hblock, ← hline]
  by_cases hb : TooLarge id ((rs.filter (!·.singleLine)).map blockSource) <;>
    by_cases hl : TooLarge lineWrap ((rs.filter (·.singleLine)).map (·.opening.toList)) <;>
      simp [hb, hl]

end

open scoped Dialect.Standard

end Regions
end BlockHue
