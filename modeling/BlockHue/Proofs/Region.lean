import BlockHue.Region
import BlockHue.Proofs.Pattern.Ahead

/-! Regions of a text. Every region is a stretch of whole characters of the text, regions come in
order and do not overlap, and the two markers of a region stand at its first and its
last character. -/
namespace BlockHue
namespace Match

structure In (m : Match) (text : List Char) : Prop where
  start : (Place.front text).Ahead m.start
  stop : m.start.Ahead m.stop

/-- The marker at the first character of a region. -/
def firstMarker (m : Match) : Token :=
  ⟨m.start.offset, (m.start.rest.head?.map Char.utf8Size).getD 0, .openIgnore⟩

/-- The marker at the last character of a region. -/
def lastMarker (m : Match) : Token :=
  let size := (m.stop.before.map Char.utf8Size).getD 0
  ⟨m.stop.offset - size, size, .closeIgnore⟩

lemma firstMarker_start (m : Match) : m.firstMarker.start = m.start.offset := rfl

/-- A match takes the characters `inside`, at least one, and its markers stand at the first and
the last of them. -/
structure Marked (m : Match) (text front inside back : List Char) : Prop where
  text : text = front ++ inside ++ back
  start : m.start.offset = Text.width front
  stop : m.stop.offset = Text.width (front ++ inside)
  first : ∃ c cs, inside = c :: cs ∧ m.firstMarker = ⟨Text.width front, c.utf8Size, .openIgnore⟩
  last : ∃ cs c, inside = cs ++ [c] ∧
    m.lastMarker = ⟨Text.width (front ++ cs), c.utf8Size, .closeIgnore⟩

variable {m : Match} {text front inside back : List Char}

lemma In.start_le_stop (h : m.In text) : m.start.offset ≤ m.stop.offset := h.stop.offset_le

/-- A match that is not empty takes characters of the text. -/
lemma In.taken (h : m.In text) (hne : m.isEmpty = false) :
    ∃ front inside, (Place.front text).Leads front m.start ∧ m.start.Leads inside m.stop ∧
      inside ≠ [] := by
  obtain ⟨⟨front, hfront⟩, ⟨inside, hinside⟩⟩ := h
  refine ⟨front, inside, hfront, hinside, ?_⟩
  rintro rfl
  have heq : m.start.offset = m.stop.offset := by simpa using hinside.offset.symm
  simp [isEmpty, heq] at hne

/-- A match that takes characters is marked at the first and the last of them. -/
lemma marked_of_leads (hfront : (Place.front text).Leads front m.start)
    (hinside : m.start.Leads inside m.stop) (hnil : inside ≠ []) :
    m.Marked text front inside m.stop.rest := by
  have hoff : m.start.offset = Text.width front := by simpa [Place.front] using hfront.offset
  have hstop : m.stop.offset = Text.width (front ++ inside) := by
    rw [hinside.offset, hoff, Text.width_append]
  refine ⟨?_, hoff, hstop, ?_, ?_⟩
  · have hrest : text = front ++ m.start.rest := hfront.rest
    rw [hrest, hinside.rest, List.append_assoc]
  · obtain ⟨c, cs, rfl⟩ := List.exists_cons_of_ne_nil hnil
    have hhead : m.start.rest.head? = some c := by rw [hinside.rest]; rfl
    exact ⟨c, cs, rfl, by simp [firstMarker, hhead, hoff]⟩
  · obtain ⟨cs, c, rfl⟩ := inside.eq_nil_or_concat'.resolve_left hnil
    have hbefore : m.stop.before = some c := by rw [hinside.before]; simp
    refine ⟨cs, c, rfl, ?_⟩
    simp only [lastMarker, hbefore, hstop, Option.map_some, Option.getD_some, Text.width_append,
      Text.width_cons, Text.width_nil, Token.mk.injEq, and_true]
    omega

/-- A match that is not empty is marked at both of its ends. -/
lemma In.marked (h : m.In text) (hne : m.isEmpty = false) :
    ∃ front inside back, m.Marked text front inside back := by
  obtain ⟨front, inside, hfront, hinside, hnil⟩ := h.taken hne
  exact ⟨front, inside, m.stop.rest, marked_of_leads hfront hinside hnil⟩

lemma In.markers (h : m.In text) (hne : m.isEmpty = false) :
    Regions.markers m = [m.firstMarker, m.lastMarker] := by
  obtain ⟨front, inside, -, hinside, hnil⟩ := h.taken hne
  obtain ⟨x, xs, hx⟩ : ∃ x xs, m.start.rest = x :: xs := by
    obtain ⟨x, xs, rfl⟩ := List.exists_cons_of_ne_nil hnil
    exact ⟨x, xs ++ m.stop.rest, hinside.rest⟩
  obtain ⟨cs, c, rfl⟩ := inside.eq_nil_or_concat'.resolve_left hnil
  have hbefore : m.stop.before = some c := by rw [hinside.before]; simp
  simp [Regions.markers, firstMarker, lastMarker, hx, hbefore]

namespace Marked

lemma first_le_last (h : m.Marked text front inside back) :
    m.firstMarker.start ≤ m.lastMarker.start := by
  obtain ⟨cs, c, rfl, hlast⟩ := h.last
  rw [hlast, firstMarker_start, h.start]
  simp

lemma last_lt_stop (h : m.Marked text front inside back) : m.lastMarker.start < m.stop.offset := by
  obtain ⟨cs, c, rfl, hlast⟩ := h.last
  have hc := c.utf8Size_pos
  rw [hlast, h.stop]
  simp only [Text.width_append, Text.width_cons, Text.width_nil]
  omega

lemma last_stop (h : m.Marked text front inside back) : m.lastMarker.stop = m.stop.offset := by
  obtain ⟨cs, c, rfl, hlast⟩ := h.last
  rw [hlast, h.stop, ← List.append_assoc]
  simp [Token.stop, Nat.add_assoc]

/-- A character boundary inside a match is not behind the last marker. -/
lemma boundary_le_last (h : m.Marked text front inside back) {n : Nat} (hn : Text.Boundary text n)
    (hlt : n < m.stop.offset) : n ≤ m.lastMarker.start := by
  obtain ⟨cs, c, rfl, hlast⟩ := h.last
  have htext : text = (front ++ cs) ++ c :: back := by simpa using h.text
  by_contra hgt
  rw [hlast] at hgt
  have hpast := (htext ▸ hn).not_inside (not_le.mp hgt)
  have hend := h.stop
  simp only [Text.width_append, Text.width_cons, Text.width_nil] at hend hpast
  omega

end Marked
end Match

namespace Regions

/-- A pending match, if there is one, lies inside the text. -/
def Pending.In (text : List Char) (k : Pending) : Prop := ∀ m, k = .found m → m.In text

variable {text : List Char} {place : Place}

lemma Pending.in_ofSearch {p : Pattern} (hplace : (Place.front text).Ahead place) :
    (ofSearch (p.search? place)).In text := by
  intro m hm
  cases hs : p.search? place with
  | none => simp [ofSearch, hs] at hm
  | some n =>
    obtain rfl : n = m := by simpa [ofSearch, hs] using hm
    obtain ⟨hstart, hstop⟩ := Pattern.search?_ahead hs
    exact ⟨hplace.trans hstart, hstop⟩

lemma Pending.in_update {p : Pattern} (hplace : (Place.front text).Ahead place) {k : Pending}
    (hk : k.In text) :
    (k.update p place).In text := by
  cases k with
  | unknown => exact in_ofSearch hplace
  | found m =>
    simp only [update]
    split
    · exact in_ofSearch hplace
    · exact hk
  | exhausted => exact hk

/-- Once brought up to a place, a pending match starts at or behind it. -/
lemma Pending.le_of_update {p : Pattern} {k : Pending} {m : Match}
    (h : k.update p place = .found m) :
    place.offset ≤ m.start.offset := by
  have hsearch (h : ofSearch (p.search? place) = .found m) : place.offset ≤ m.start.offset := by
    cases hs : p.search? place with
    | none => simp [ofSearch, hs] at h
    | some n =>
      obtain rfl : n = m := by simpa [ofSearch, hs] using h
      exact (Pattern.search?_ahead hs).1.offset_le
  cases k with
  | unknown => exact hsearch h
  | found n =>
    simp only [update] at h
    split at h
    · exact hsearch h
    · obtain rfl := Pending.found.inj h
      omega
  | exhausted => contradiction

lemma choose_eq {b l : Pending} {m : Match} (h : choose b.match? l.match? = some m) :
    b = .found m ∨ l = .found m := by
  cases b <;> cases l <;> simp [Pending.match?, choose] at h ⊢ <;> grind

lemma ahead_resume {place : Place} {m : Match} (hstart : place.Ahead m.start)
    (hstop : m.start.Ahead m.stop) :
    place.Ahead (resume m) := by
  unfold resume
  split
  · exact hstart.trans (Place.Ahead.next m.start)
  · exact hstart.trans hstop

lemma stop_le_resume {m : Match} : m.stop.offset ≤ (resume m).offset := by
  unfold resume
  split
  next hempty =>
    have heq : m.start.offset = m.stop.offset := by simpa [Match.isEmpty] using hempty
    exact heq ▸ (Place.Ahead.next m.start).offset_le
  next => exact le_rfl

/-- From a place on, matches lie inside the text and behind the place, each behind
the one before it. -/
lemma findFrom_ordered (r : Regions) (fuel : Nat) {block line : Pending} (hblock : block.In text)
    (hline : line.In text) (hplace : (Place.front text).Ahead place) :
    (∀ m ∈ findFrom r fuel block line place, m.In text ∧ place.offset ≤ m.start.offset) ∧
      (findFrom r fuel block line place).Pairwise fun a b => a.stop.offset ≤ b.start.offset := by
  induction fuel generalizing block line place with
  | zero => simp [findFrom]
  | succ fuel ih =>
    unfold findFrom
    split
    · simp
    · have hblock := Pending.in_update (p := r.block) hplace hblock
      have hline := Pending.in_update (p := r.line) hplace hline
      dsimp only
      split
      · simp
      next m hm =>
        have hfound : m.In text ∧ place.offset ≤ m.start.offset := by
          rcases choose_eq hm with h | h
          · exact ⟨hblock m h, Pending.le_of_update h⟩
          · exact ⟨hline m h, Pending.le_of_update h⟩
        obtain ⟨hrest, hpairs⟩ := ih hblock hline (ahead_resume hfound.1.start hfound.1.stop)
        have hbehind (n : Match)
            (hn : n ∈ findFrom r fuel (block.update r.block place) (line.update r.line place)
              (resume m)) : m.stop.offset ≤ n.start.offset := stop_le_resume.trans (hrest n hn).2
        refine ⟨?_, List.pairwise_cons.mpr ⟨hbehind, hpairs⟩⟩
        intro n hn
        rcases List.mem_cons.mp hn with rfl | hn
        · exact hfound
        · have hle := hfound.1.start_le_stop
          have hn' := hbehind n hn
          exact ⟨(hrest n hn).1, by omega⟩

/-- A pending match is a match of its pattern. -/
def Pending.Of (p : Pattern) (k : Pending) : Prop := ∀ m, k = .found m → p.matchAt? m.start = some m

lemma Pending.of_update {p : Pattern} {k : Pending} (hk : k.Of p) (place : Place) :
    (k.update p place).Of p := by
  have hsearch : (ofSearch (p.search? place)).Of p := by
    intro m hm
    cases hs : p.search? place with
    | none => simp [ofSearch, hs] at hm
    | some n =>
      obtain rfl : n = m := by simpa [ofSearch, hs] using hm
      exact (Pattern.search?_spec hs).2
  cases k with
  | unknown => exact hsearch
  | found m =>
    simp only [update]
    split
    · exact hsearch
    · exact hk
  | exhausted => exact hk

/-- Every region is a match of the block pattern or of the line pattern. -/
lemma matchAt?_of_mem_findFrom {r : Regions} {fuel : Nat} {block line : Pending}
    (hblock : block.Of r.block) (hline : line.Of r.line) {m : Match}
    (h : m ∈ findFrom r fuel block line place) :
    r.block.matchAt? m.start = some m ∨ r.line.matchAt? m.start = some m := by
  induction fuel generalizing block line place with
  | zero => simp [findFrom] at h
  | succ fuel ih =>
    have hblock := Pending.of_update hblock place
    have hline := Pending.of_update hline place
    unfold findFrom at h
    split at h
    · contradiction
    · dsimp only at h
      split at h
      · contradiction
      next n hn =>
        rcases List.mem_cons.mp h with rfl | h
        · exact (choose_eq hn).imp (hblock m) (hline m)
        · exact ih hblock hline h

lemma matchAt?_of_mem_find {r : Regions} {m : Match} (h : m ∈ r.find text) :
    r.block.matchAt? m.start = some m ∨ r.line.matchAt? m.start = some m := by
  have hnone (p : Pattern) : Pending.Of p .unknown := by simp [Pending.Of]
  exact matchAt?_of_mem_findFrom (hnone _) (hnone _) (List.mem_filter.mp h).1

lemma find_in {r : Regions} {m : Match} (h : m ∈ r.find text) : m.In text ∧ m.isEmpty = false := by
  obtain ⟨hm, hne⟩ := List.mem_filter.mp h
  have hstart : Pending.In text .unknown := by simp [Pending.In]
  exact ⟨((findFrom_ordered r _ hstart hstart (Place.Ahead.refl _)).1 m hm).1, by simpa using hne⟩

lemma find_marked {r : Regions} {m : Match} (h : m ∈ r.find text) :
    ∃ front inside back, m.Marked text front inside back := (find_in h).1.marked (find_in h).2

lemma find_pairwise (r : Regions) (text : List Char) :
    (r.find text).Pairwise fun a b => a.stop.offset ≤ b.start.offset := by
  have hstart : Pending.In text .unknown := by simp [Pending.In]
  exact (findFrom_ordered r _ hstart hstart (Place.Ahead.refl _)).2.filter _

/-- Two regions of a text are the same or do not overlap. -/
lemma find_apart {r : Regions} {m n : Match} (hm : m ∈ r.find text) (hn : n ∈ r.find text) :
    m = n ∨ m.stop.offset ≤ n.start.offset ∨ n.stop.offset ≤ m.start.offset := by
  have hpairs : (r.find text).Pairwise fun a b =>
      a.stop.offset ≤ b.start.offset ∨ b.stop.offset ≤ a.start.offset :=
    (find_pairwise r text).imp fun hab => .inl hab
  have : Std.Symm fun a b : Match =>
      a.stop.offset ≤ b.start.offset ∨ b.stop.offset ≤ a.start.offset :=
    ⟨fun _ _ => Or.symm⟩
  by_cases heq : m = n
  · exact .inl heq
  · exact .inr (hpairs.forall hm hn heq)

lemma tokens_eq (r : Regions) (text : List Char) :
    r.tokens text = (r.find text).flatMap fun m => [m.firstMarker, m.lastMarker] := by
  unfold tokens
  apply List.flatMap_congr
  intro m hm
  exact (find_in hm).1.markers (find_in hm).2

end Regions
end BlockHue
