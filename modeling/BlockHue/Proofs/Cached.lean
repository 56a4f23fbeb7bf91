import BlockHue.Proofs.Pattern.Earliest
import BlockHue.Proofs.Region

/-! Matches kept for later. The search for regions keeps the next match of each pattern until it has
been passed, and gives a pattern up once nothing is left of it. Main statement: the search comes to
an end, and finds what a search finds that looks for both patterns afresh at every place. -/
namespace BlockHue
namespace Regions

variable {r : Regions} {place : Place} {m : Match}

/-- The one of the next matches of both kinds that begins first, which is the block if they
begin at one place. -/
inductive Earlier : Option Match → Option Match → Match → Prop
  | block {b : Match} {line : Option Match} (h : ∀ l ∈ line, b.start.offset ≤ l.start.offset) :
      Earlier (some b) line b
  | line {block : Option Match} {l : Match} (h : ∀ b ∈ block, l.start.offset < b.start.offset) :
      Earlier block (some l) l

lemma choose_eq_some_iff {block line : Option Match} :
    choose block line = some m ↔ Earlier block line m := by
  constructor
  · intro h
    cases block with
    | none =>
      obtain rfl : line = some m := h
      exact .line (by simp)
    | some b =>
      cases line with
      | none =>
        obtain rfl : b = m := Option.some.inj h
        exact .block (by simp)
      | some l =>
        obtain rfl := Option.some.inj h
        split
        next hlt => exact .line (by simpa using hlt)
        next hle => exact .block (by simpa using hle)
  · intro h
    cases h with
    | block h =>
      cases line with
      | none => rfl
      | some l => rw [choose, if_neg (Nat.not_lt.mpr (h l rfl))]
    | line h =>
      cases block with
      | none => rfl
      | some b => rw [choose, if_pos (h b rfl)]

lemma choose_eq_none_iff {block line : Option Match} :
    choose block line = none ↔ block = none ∧ line = none := by
  cases block <;> cases line <;> simp [choose]

lemma Earlier.unique {block line : Option Match} {n : Match} (hm : Earlier block line m)
    (hn : Earlier block line n) : m = n :=
  Option.some.inj ((choose_eq_some_iff.mpr hm).symm.trans (choose_eq_some_iff.mpr hn))

/-- The match that is taken lies ahead. -/
lemma Earlier.ahead (h : Earlier (r.block.search? place) (r.line.search? place) m) :
    place.Ahead m.start ∧ m.start.Ahead m.stop := by
  generalize hblock : r.block.search? place = block at h
  generalize hline : r.line.search? place = line at h
  cases h with
  | block _ => exact Pattern.search?_ahead hblock
  | line _ => exact Pattern.search?_ahead hline

/-- Where the block pattern matches, its match is taken. -/
lemma earlier_of_block (h : r.block.matchAt? place = some m) :
    Earlier (r.block.search? place) (r.line.search? place) m := by
  rw [Pattern.search?_of_matchAt? h]
  refine .block fun l hl => ?_
  rw [(Pattern.matchAt?_ahead h).1]
  exact (Pattern.search?_ahead hl).1.offset_le

/-- Where only the line pattern matches, its match is taken. -/
lemma earlier_of_line (hnone : r.block.matchAt? place = none) (h : r.line.matchAt? place = some m) :
    Earlier (r.block.search? place) (r.line.search? place) m := by
  rw [Pattern.search?_of_matchAt? h]
  refine .line fun b hb => ?_
  obtain ⟨hahead, hmatch⟩ := Pattern.search?_spec hb
  rw [(Pattern.matchAt?_ahead h).1]
  refine lt_of_le_of_ne hahead.offset_le fun heq => ?_
  rw [(Place.Ahead.refl place).eq_of_offset_eq hahead heq, hnone] at hmatch
  contradiction

lemma resume_of_isEmpty (h : m.isEmpty = true) : resume m = m.start.next := by rw [resume, if_pos h]

lemma resume_of_not_isEmpty (h : m.isEmpty = false) : resume m = m.stop := by rw [resume, h]; rfl

/-- The search goes on behind the place where it was, after an empty match too. -/
lemma lt_resume (hend : place.atEnd = false) (hstart : place.Ahead m.start)
    (hstop : m.start.Ahead m.stop) :
    place.offset < (resume m).offset := by
  have hle := hstart.offset_le
  unfold resume
  split
  next =>
    cases hrest : m.start.rest with
    | nil =>
      have hplace : 0 < Text.width place.rest := Text.width_pos (by simpa [Place.atEnd] using hend)
      have hwhole := hstart.end_eq
      rw [hrest, Text.width_nil] at hwhole
      have hnext := (Place.Ahead.next m.start).offset_le
      omega
    | cons c cs =>
      have hnext := (Place.Leads.next hrest).offset
      have hc := c.utf8Size_pos
      rw [Text.width_cons] at hnext
      omega
  next hne =>
    have hlt := hstop.offset_le
    have hoffset : m.start.offset ≠ m.stop.offset := by simpa [Match.isEmpty] using hne
    omega

namespace Pending

/-- What is known at a place of the next match of a pattern was found from there or from before. -/
def Sound (p : Pattern) (place : Place) : Pending → Prop
  | unknown => True
  | found m => ∃ earlier, earlier.Ahead place ∧ p.search? earlier = some m
  | exhausted => ∃ earlier, earlier.Ahead place ∧ p.search? earlier = none

variable {p : Pattern} {k : Pending}

lemma Sound.ahead {later : Place} (hk : k.Sound p place) (h : place.Ahead later) :
    k.Sound p later := by
  cases k with
  | unknown => trivial
  | found m =>
    obtain ⟨earlier, hearlier, hm⟩ := hk
    exact ⟨earlier, hearlier.trans h, hm⟩
  | exhausted =>
    obtain ⟨earlier, hearlier, hnone⟩ := hk
    exact ⟨earlier, hearlier.trans h, hnone⟩

lemma sound_ofSearch (p : Pattern) (place : Place) :
    (ofSearch (p.search? place)).Sound p place := by
  cases h : p.search? place with
  | none => exact ⟨place, Place.Ahead.refl place, h⟩
  | some m => exact ⟨place, Place.Ahead.refl place, h⟩

lemma match?_ofSearch (found : Option Match) : (ofSearch found).match? = found := by
  cases found <;> rfl

lemma Sound.update (hk : k.Sound p place) : (k.update p place).Sound p place := by
  cases k with
  | unknown => exact sound_ofSearch p place
  | found m =>
    simp only [Pending.update]
    split
    · exact sound_ofSearch p place
    · exact hk
  | exhausted => exact hk

/-- Once brought up to a place, what is known is what a search from there finds. -/
lemma Sound.match?_update (hk : k.Sound p place) : (k.update p place).match? = p.search? place := by
  cases k with
  | unknown => exact match?_ofSearch _
  | found m =>
    obtain ⟨earlier, hearlier, hm⟩ := hk
    simp only [Pending.update]
    split
    · exact match?_ofSearch _
    next hlt => exact (Pattern.search?_of_earlier hm hearlier (Nat.not_lt.mp hlt)).symm
  | exhausted =>
    obtain ⟨earlier, hearlier, hnone⟩ := hk
    exact (Pattern.search?_eq_none_of_earlier hnone hearlier).symm

end Pending

/-- The finished searches that keep matches for later, each with the matches that it takes. -/
inductive CachedRun (r : Regions) : Pending → Pending → Place → List Match → Prop
  | atEnd {block line : Pending} {place : Place} (hend : place.atEnd = true) :
      CachedRun r block line place []
  | nothing {block line : Pending} {place : Place} (hend : place.atEnd = false)
      (hnone :
        choose (block.update r.block place).match? (line.update r.line place).match? = none) :
      CachedRun r block line place []
  | found {block line : Pending} {place : Place} {m : Match} {ms : List Match}
      (hend : place.atEnd = false)
      (hm : choose (block.update r.block place).match? (line.update r.line place).match? = some m)
      (tail :
        CachedRun r (block.update r.block place) (line.update r.line place) (resume m) ms) :
      CachedRun r block line place (m :: ms)

/-- The finished searches that look for both patterns at every place, each with the matches that it
takes. -/
inductive AfreshRun (r : Regions) : Place → List Match → Prop
  | atEnd {place : Place} (hend : place.atEnd = true) : AfreshRun r place []
  | nothing {place : Place} (hend : place.atEnd = false) (hblock : r.block.search? place = none)
      (hline : r.line.search? place = none) : AfreshRun r place []
  | found {place : Place} {m : Match} {ms : List Match} (hend : place.atEnd = false)
      (hm : Earlier (r.block.search? place) (r.line.search? place) m) (hne : m.isEmpty = false)
      (tail : AfreshRun r m.stop ms) : AfreshRun r place (m :: ms)
  /-- An empty match is passed by one character. -/
  | empty {place : Place} {m : Match} {ms : List Match} (hend : place.atEnd = false)
      (hm : Earlier (r.block.search? place) (r.line.search? place) m) (hempty : m.isEmpty = true)
      (tail : AfreshRun r m.start.next ms) : AfreshRun r place (m :: ms)

variable {block line : Pending} {ms : List Match}

lemma AfreshRun.of_choose (hend : place.atEnd = false)
    (hm : choose (r.block.search? place) (r.line.search? place) = some m)
    (tail : AfreshRun r (resume m) ms) : AfreshRun r place (m :: ms) := by
  have hearlier := choose_eq_some_iff.mp hm
  cases hempty : m.isEmpty with
  | true => exact .empty hend hearlier hempty (resume_of_isEmpty hempty ▸ tail)
  | false => exact .found hend hearlier hempty (resume_of_not_isEmpty hempty ▸ tail)

/-- What is kept stays sound from round to round, so each round takes what a search afresh takes. -/
lemma CachedRun.afresh (h : CachedRun r block line place ms) (hblock : block.Sound r.block place)
    (hline : line.Sound r.line place) : AfreshRun r place ms := by
  induction h with
  | atEnd hend => exact .atEnd hend
  | nothing hend hnone =>
    rw [hblock.match?_update, hline.match?_update, choose_eq_none_iff] at hnone
    exact .nothing hend hnone.1 hnone.2
  | found hend hm tail ih =>
    rw [hblock.match?_update, hline.match?_update] at hm
    obtain ⟨hstart, hstop⟩ := (choose_eq_some_iff.mp hm).ahead
    have hahead := ahead_resume hstart hstop
    exact .of_choose hend hm (ih (hblock.update.ahead hahead) (hline.update.ahead hahead))

/-- A round that takes what a search afresh takes, whatever sound knowledge it began with. -/
lemma CachedRun.of_earlier (hblock : block.Sound r.block place) (hline : line.Sound r.line place)
    (hend : place.atEnd = false) (hm : Earlier (r.block.search? place) (r.line.search? place) m)
    (ih : ∀ {block line : Pending}, block.Sound r.block (resume m) → line.Sound r.line (resume m) →
      CachedRun r block line (resume m) ms) : CachedRun r block line place (m :: ms) := by
  have hahead := ahead_resume hm.ahead.1 hm.ahead.2
  rw [← hblock.match?_update, ← hline.match?_update, ← choose_eq_some_iff] at hm
  exact .found hend hm (ih (hblock.update.ahead hahead) (hline.update.ahead hahead))

lemma AfreshRun.cached (h : AfreshRun r place ms) (hblock : block.Sound r.block place)
    (hline : line.Sound r.line place) :
    CachedRun r block line place ms := by
  induction h generalizing block line with
  | atEnd hend => exact .atEnd hend
  | nothing hend hblock' hline' =>
    refine .nothing hend ?_
    rw [hblock.match?_update, hline.match?_update, hblock', hline']
    rfl
  | found hend hm hne tail ih =>
    rw [← resume_of_not_isEmpty hne] at ih
    exact .of_earlier hblock hline hend hm ih
  | empty hend hm hempty tail ih =>
    rw [← resume_of_isEmpty hempty] at ih
    exact .of_earlier hblock hline hend hm ih

lemma length_resume_lt (hend : place.atEnd = false)
    (hm : Earlier (r.block.search? place) (r.line.search? place) m) :
    (resume m).rest.length < place.rest.length :=
  (ahead_resume hm.ahead.1 hm.ahead.2).length_lt (lt_resume hend hm.ahead.1 hm.ahead.2)

/-- A search afresh ends with fewer matches than there are characters left, one more for
the end of the text. -/
lemma afreshRun_findAfreshFrom {fuel : Nat} (h : place.rest.length < fuel) :
    AfreshRun r place (findAfreshFrom r fuel place) := by
  induction fuel generalizing place with
  | zero => contradiction
  | succ fuel ih =>
    unfold findAfreshFrom
    cases hend : place.atEnd with
    | true => exact .atEnd hend
    | false =>
      simp only [Bool.false_eq_true, if_false]
      split
      next hnone =>
        exact .nothing hend (choose_eq_none_iff.mp hnone).1 (choose_eq_none_iff.mp hnone).2
      next m hm =>
        have hlt := length_resume_lt hend (choose_eq_some_iff.mp hm)
        exact .of_choose hend hm (ih (by omega))

lemma findAfreshFrom_of_earlier {fuel : Nat} (hend : place.atEnd = false)
    (hm : Earlier (r.block.search? place) (r.line.search? place) m) :
    findAfreshFrom r (fuel + 1) place = m :: findAfreshFrom r fuel (resume m) := by
  simp [findAfreshFrom, hend, choose_eq_some_iff.mpr hm]

/-- There is no other finished search than this one. -/
lemma AfreshRun.eq_findAfreshFrom (h : AfreshRun r place ms) {fuel : Nat}
    (hfuel : place.rest.length < fuel) :
    ms = findAfreshFrom r fuel place := by
  induction fuel generalizing place ms with
  | zero => contradiction
  | succ fuel ih =>
    cases h with
    | atEnd hend => simp [findAfreshFrom, hend]
    | nothing hend hblock hline => simp [findAfreshFrom, hend, hblock, hline, choose]
    | found hend hm hne tail =>
      have hlt := length_resume_lt hend hm
      rw [← resume_of_not_isEmpty hne] at tail
      rw [findAfreshFrom_of_earlier hend hm, ← ih tail (by omega)]
    | empty hend hm hempty tail =>
      have hlt := length_resume_lt hend hm
      rw [← resume_of_isEmpty hempty] at tail
      rw [findAfreshFrom_of_earlier hend hm, ← ih tail (by omega)]

lemma findFrom_eq_findAfreshFrom (fuel : Nat) (hblock : block.Sound r.block place)
    (hline : line.Sound r.line place) :
    findFrom r fuel block line place = findAfreshFrom r fuel place := by
  induction fuel generalizing block line place with
  | zero => rfl
  | succ fuel ih =>
    unfold findFrom findAfreshFrom
    simp only [hblock.match?_update, hline.match?_update]
    split
    · rfl
    · split
      · rfl
      next m hm =>
        obtain ⟨hstart, hstop⟩ := (choose_eq_some_iff.mp hm).ahead
        have hahead := ahead_resume hstart hstop
        rw [ih (hblock.update.ahead hahead) (hline.update.ahead hahead)]

/-- The regions of a text are those of a search that looks for both patterns at every place. -/
lemma find_eq_findAfresh (r : Regions) (text : List Char) : r.find text = r.findAfresh text := by
  have hfrom : findFrom r (text.length + 1) .unknown .unknown (Place.front text) =
      findAfreshFrom r (text.length + 1) (Place.front text) :=
    findFrom_eq_findAfreshFrom _ trivial trivial
  rw [find, hfrom, findAfresh]

/-- The search that keeps matches for later comes to an end, with the matches of a search that looks
for both patterns afresh at every place, and marks the first and the last character
of just these. -/
theorem tokens_of_runs (r : Regions) (text : List Char) :
    ∃ ms, (∀ l, r.CachedRun .unknown .unknown (Place.front text) l ↔ l = ms) ∧
      (∀ l, r.AfreshRun (Place.front text) l ↔ l = ms) ∧
      r.tokens text = (ms.filter (!·.isEmpty)).flatMap fun m => [m.firstMarker, m.lastMarker] := by
  have hfuel : (Place.front text).rest.length < text.length + 1 := Nat.lt_succ_self _
  have hrun : r.AfreshRun (Place.front text) _ := afreshRun_findAfreshFrom hfuel
  refine ⟨_, fun l => ⟨fun h => ?_, ?_⟩, fun l => ⟨fun h => h.eq_findAfreshFrom hfuel, ?_⟩, ?_⟩
  · exact (h.afresh trivial trivial).eq_findAfreshFrom hfuel
  · rintro rfl
    exact hrun.cached trivial trivial
  · rintro rfl
    exact hrun
  · rw [tokens_eq, find_eq_findAfresh, findAfresh]

end Regions
end BlockHue
