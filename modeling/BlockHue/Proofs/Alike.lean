import BlockHue.Proofs.Bytes
import BlockHue.Proofs.Kept
import BlockHue.Proofs.Plain

/-! Texts that differ in their regions only. A text is cut by its regions, each of them sealed off
by marks. Two texts with the same cuts and the same bytes outside of the regions have the same
keywords and the same brackets there, and no keyword of a region goes beyond it. -/
namespace BlockHue

/-- Whether an offset lies in none of some stretches. -/
def Span.outside (spans : List Span) (n : Nat) : Bool :=
  spans.all fun s => n < s.start || s.stop ≤ n

namespace Span

lemma outside_cons (s : Span) (spans : List Span) (n : Nat) :
    outside (s :: spans) n = ((n < s.start || s.stop ≤ n) && outside spans n) := rfl

lemma outside_eq_false_iff {spans : List Span} {n : Nat} :
    outside spans n = false ↔ ∃ s ∈ spans, s.start ≤ n ∧ n < s.stop := by
  simp [outside, List.all_eq_false]

end Span

/-- A text from an offset on that is cut by sealed regions. -/
inductive Cut (p : Profile) : Nat → List Span → List Char → Prop
  | rest (offset : Nat) (rest : List Char) : Cut p offset [] rest
  | region {offset : Nat} {spans : List Span} {front inside back : List Char}
      (hinside : p.Sealed inside back)
      (hback : Cut p (offset + Text.width (front ++ inside)) spans back) :
      Cut p offset (⟨offset + Text.width front, offset + Text.width (front ++ inside)⟩ :: spans)
        (front ++ (inside ++ back))

namespace Cut

variable {p : Profile} {offset : Nat} {spans : List Span} {rest : List Char}

lemma of_cons {start stop : Nat}
    (h : Cut p offset (⟨offset + start, offset + stop⟩ :: spans) rest) :
    ∃ front inside back, rest = front ++ (inside ++ back) ∧ Text.width front = start ∧
      Text.width (front ++ inside) = stop ∧ p.Sealed inside back ∧
        Cut p (offset + stop) spans back := by
  generalize hspan : (⟨offset + start, offset + stop⟩ : Span) = s at h
  generalize hspans : s :: spans = ss at h
  cases h with
  | rest => contradiction
  | @region _ _ front inside back hinside hback =>
    obtain ⟨rfl, rfl⟩ := List.cons.inj hspans
    obtain ⟨hstart, hstop⟩ := Span.mk.inj hspan
    obtain rfl := Nat.add_left_cancel hstart
    obtain rfl := Nat.add_left_cancel hstop
    exact ⟨front, inside, back, rfl, rfl, rfl, hinside, hback⟩

lemma le_start (h : Cut p offset spans rest) {s : Span} (hs : s ∈ spans) :
    offset ≤ s.start ∧ s.start ≤ s.stop := by
  induction h with
  | rest => contradiction
  | region _ _ ih =>
    rcases List.mem_cons.mp hs with rfl | hs
    · exact ⟨Nat.le_add_right _ _, by simp⟩
    · have hle := ih hs
      omega

/-- Regions in order, each of them sealed, cut a text; `done` is the text in front of the first. -/
lemma of_matches {done : List Char} {ms : List Match}
    (hms : ∀ m ∈ ms, Text.width done ≤ m.start.offset ∧ ∃ front inside back,
      m.Marked (done ++ rest) front inside back ∧
        p.Sealed inside back)
    (hpairs : ms.Pairwise fun a b => a.stop.offset ≤ b.start.offset) :
    Cut p (Text.width done) (ms.map Match.span) rest := by
  induction ms generalizing done rest with
  | nil => exact .rest _ _
  | cons m ms ih =>
    obtain ⟨hle, front, inside, back, hmarked, hsealed⟩ := hms m List.mem_cons_self
    rw [List.pairwise_cons] at hpairs
    have htext : done ++ rest = front ++ (inside ++ back) := by rw [hmarked.text, List.append_assoc]
    obtain ⟨middle, rfl⟩ := Text.prefix_of_width_le htext (hmarked.start ▸ hle)
    rw [List.append_assoc] at htext
    obtain rfl := List.append_cancel_left htext
    have hspan :
        m.span = ⟨Text.width done + Text.width middle,
        Text.width done + Text.width (middle ++ inside)⟩ := by
      have hstart := hmarked.start
      have hstop := hmarked.stop
      simp only [Match.span, hstart, hstop, Text.width_append, Nat.add_assoc]
    rw [List.map_cons, hspan]
    refine .region hsealed ?_
    rw [← Text.width_append]
    refine ih (fun n hn => ⟨?_, ?_⟩) hpairs.2
    · rw [← List.append_assoc, ← hmarked.stop]
      exact hpairs.1 n hn
    · obtain ⟨-, hexists⟩ := hms n (List.mem_cons_of_mem m hn)
      simpa only [List.append_assoc] using hexists

end Cut

namespace Keyword

variable {p : Profile} {words : List (List Char)}

lemma Foreign.mono {caseSensitive : Bool} {words' : List (List Char)} {c : Char}
    (h : Foreign caseSensitive words' c) (hsub : words ⊆ words') : Foreign caseSensitive words c :=
    fun w hw => h w (hsub hw)

lemma freshBehind_append_eq_false {fresh : Bool} {front cs : List Char} {c : Char}
    (hc : Text.isSpace c = false) (hcs : ∀ d ∈ cs, Text.isSpace d = false) :
    freshBehind fresh (front ++ c :: cs) = false := by
  rw [freshBehind_append]
  exact freshBehind_eq_false (List.cons_ne_nil c cs) (List.forall_mem_cons.mpr ⟨hc, hcs⟩)

/-- Behind a region keywords are found as if none might start there. -/
lemma spansFrom_behind_region (hp : p.Sealing) (hsub : words ⊆ p.words) {inside back : List Char}
    (hinside : p.Sealed inside back) (fresh : Bool) (offset : Nat) :
    spansFrom (ofWords p.caseSensitive words) (freshBehind fresh inside) 0 offset back =
      spansFrom (ofWords p.caseSensitive words) false 0 offset back := by
  rcases hinside.last with ⟨front, c, cs, rfl, hc, hcs⟩ | hback
  · rw [freshBehind_append_eq_false hc.isSpace hcs]
  · rcases back with _ | ⟨d, ds⟩
    · rfl
    · obtain rfl : d = '\n' := by simpa using hback
      have hnone : lengthAt? (ofWords p.caseSensitive words) ('\n' :: ds) = none := by
        rw [Option.eq_none_iff_forall_ne_some]
        intro n hn
        have hle := lengthAt?_le_of_foreign (x := []) (hp.newline.mono hsub) hn
        have hpos := lengthAt?_pos hn
        simp only [Text.width_nil] at hle
        omega
      simp [spansFrom, hnone]

/-- A keyword that starts in a region ends in it. -/
lemma lengthAt?_le_of_sealed (hp : p.Sealing) (hsub : words ⊆ p.words) {x y back : List Char}
    {fresh : Bool} (hinside : p.Sealed (x ++ y) back) (hfresh : freshBehind fresh x = true)
    {n : Nat}
    (h : lengthAt? (ofWords p.caseSensitive words) (y ++ back) = some n) : n ≤ Text.width y := by
  rcases hinside.last with ⟨front, c, cs, hinside, hc, hcs⟩ | hback
  · rcases List.append_eq_append_iff.mp hinside with ⟨z, rfl, rfl⟩ | ⟨z, rfl, hz⟩
    · rw [List.append_assoc, List.cons_append] at h
      have hle := lengthAt?_le_of_foreign (hc.2.1.mono hsub) h
      rw [Text.width_append]
      omega
    · rcases z with _ | ⟨d, z⟩
      · obtain rfl : c :: cs = y := hz
        have hle := lengthAt?_le_of_foreign (x := []) (hc.2.1.mono hsub) h
        simp only [Text.width_nil] at hle
        omega
      · obtain ⟨rfl, rfl⟩ := List.cons.inj hz
        have hfalse : freshBehind fresh (front ++ c :: z) = false :=
          freshBehind_append_eq_false hc.isSpace fun e he => hcs e (List.mem_append_left _ he)
        rw [hfalse] at hfresh
        contradiction
  · rcases back with _ | ⟨d, ds⟩
    · rw [List.append_nil] at h
      exact lengthAt?_le h
    · obtain rfl : d = '\n' := by simpa using hback
      exact lengthAt?_le_of_foreign (hp.newline.mono hsub) h

/-- Keywords inside of a region do not go beyond it. -/
lemma spansFrom_inside (hp : p.Sealing) (hsub : words ⊆ p.words) {inside back : List Char}
    (hinside : p.Sealed inside back) (fresh : Bool) (offset : Nat) :
    ∃ hidden : List Span,
      (∀ s ∈ hidden, offset ≤ s.start ∧ s.start < s.stop ∧ s.stop ≤ offset + Text.width inside) ∧
      spansFrom (ofWords p.caseSensitive words) fresh 0 offset (inside ++ back) =
        hidden ++
          spansFrom (ofWords p.caseSensitive words) false 0 (offset + Text.width inside) back := by
  have hle (x y : List Char) (hxy : inside = x ++ y) (hfresh : freshBehind fresh x = true)
      (n : Nat) :
      lengthAt? (ofWords p.caseSensitive words) (y ++ back) = some n → n ≤ Text.width y :=
    lengthAt?_le_of_sealed hp hsub (hxy ▸ hinside) hfresh
  have hcongr (y : List Char) (_ : y <:+ inside) :
      lengthAt? (ofWords p.caseSensitive words) (y ++ back) =
      lengthAt? (ofWords p.caseSensitive words) (y ++ back) := rfl
  obtain ⟨hidden, hhidden, heq, -⟩ :=
    spansFrom_append hle hcongr (Nat.zero_le (offset + Text.width inside))
  exact ⟨hidden, hhidden, by rw [heq, spansFrom_behind_region hp hsub hinside]⟩

/-- Keywords in front of a region do not depend on what stands in it, and those inside of it do
not go beyond it. -/
lemma spansFrom_region (hp : p.Sealing) (hsub : words ⊆ p.words)
    {inside inside' back back' : List Char} (hinside : p.Sealed inside back)
    (hinside' : p.Sealed inside' back') (hwidth : Text.width inside' = Text.width inside)
    (front : List Char) (fresh : Bool) (offset : Nat) :
    ∃ found hidden hidden' : List Span,
      (∀ s ∈ found, s.stop ≤ offset + Text.width front) ∧
      (∀ s ∈ hidden ++ hidden', offset + Text.width front ≤ s.start ∧ s.start < s.stop ∧
        s.stop ≤ offset + Text.width (front ++ inside)) ∧
      spansFrom (ofWords p.caseSensitive words) fresh 0 offset (front ++ (inside ++ back)) =
        found ++ (hidden ++ spansFrom (ofWords p.caseSensitive words) false 0
          (offset + Text.width (front ++ inside)) back) ∧
      spansFrom (ofWords p.caseSensitive words) fresh 0 offset (front ++ (inside' ++ back')) =
        found ++ (hidden' ++ spansFrom (ofWords p.caseSensitive words) false 0
          (offset + Text.width (front ++ inside)) back') := by
  obtain ⟨hidden, hhidden, hin⟩ :=
    spansFrom_inside hp hsub hinside (freshBehind fresh front) (offset + Text.width front)
  obtain ⟨hidden', hhidden', hin'⟩ :=
    spansFrom_inside hp hsub hinside' (freshBehind fresh front) (offset + Text.width front)
  have hoffset : offset + Text.width front + Text.width inside =
      offset + Text.width (front ++ inside) := by
    rw [Text.width_append, Nat.add_assoc]
  rw [hoffset] at hin hhidden
  rw [hwidth, hoffset] at hin' hhidden'
  obtain ⟨c, cs, rfl, hc⟩ := hinside.first
  obtain ⟨d, ds, rfl, hd⟩ := hinside'.first
  have hforeign := hc.2.1.mono hsub
  have hforeign' := hd.2.1.mono hsub
  have hle (x y : List Char) (_ : front = x ++ y) (_ : freshBehind fresh x = true) (n : Nat)
      (hn : lengthAt? (ofWords p.caseSensitive words) (y ++ (c :: cs ++ back)) = some n) :
        n ≤ Text.width y :=
    lengthAt?_le_of_foreign hforeign hn
  have hcongr (y : List Char) (_ : y <:+ front) :
      lengthAt? (ofWords p.caseSensitive words) (y ++ (c :: cs ++ back)) =
      lengthAt? (ofWords p.caseSensitive words) (y ++ (d :: ds ++ back')) :=
    lengthAt?_congr_of_foreign hforeign hforeign' hc.isSpace hd.isSpace
  obtain ⟨found, hfound, hspans, hspans'⟩ :=
    spansFrom_append hle hcongr (Nat.zero_le (offset + Text.width front))
  refine ⟨found, hidden, hidden', fun s hs =>
    (hfound s hs).2.2, ?_, by rw [hspans, hin], by rw [hspans', hin']⟩
  intro s hs
  rcases List.mem_append.mp hs with hs | hs
  · exact hhidden s hs
  · exact hhidden' s hs

end Keyword

namespace Cut

variable {p : Profile} {offset : Nat} {spans : List Span} {rest : List Char}

lemma keyword_inside (hp : p.Sealing) {words : List (List Char)} (hsub : words ⊆ p.words)
    (h : Cut p offset spans rest) (fresh : Bool) {k s : Span}
    (hk : k ∈ Keyword.spansFrom (Keyword.ofWords p.caseSensitive words) fresh 0 offset rest)
    (hs : s ∈ spans) (hstart : s.start ≤ k.start) (hstop : k.start < s.stop) : k.stop ≤ s.stop := by
  induction h generalizing fresh with
  | rest => contradiction
  | @region offset spans front inside back hinside hback ih =>
    obtain ⟨found, hidden, hidden', hfound, hhidden, hspans, -⟩ :=
      Keyword.spansFrom_region hp hsub hinside hinside rfl front fresh offset
    have hfirst : s.start = offset + Text.width front ∧
        s.stop = offset + Text.width (front ++ inside) ∨ s ∈ spans := by
      rcases List.mem_cons.mp hs with rfl | hs
      · exact .inl ⟨rfl, rfl⟩
      · exact .inr hs
    have hlater (hs : s ∈ spans) := (hback.le_start hs).1
    rw [Text.width_append] at hlater hfirst hhidden
    rw [hspans] at hk
    rcases List.mem_append.mp hk with hk | hk
    · have hk' := hfound k hk
      rcases hfirst with ⟨hfirst, -⟩ | hs
      · omega
      · have hs' := hlater hs
        omega
    · rcases List.mem_append.mp hk with hk | hk
      · have hk' := hhidden k (List.mem_append_left _ hk)
        rcases hfirst with ⟨-, hfirst⟩ | hs
        · omega
        · have hs' := hlater hs
          omega
      · rcases hfirst with ⟨-, hfirst⟩ | hs
        · have hk' := ((Keyword.spansFrom_ordered _ _ _ _ _).1 k hk).2
          rw [Text.width_append] at hk'
          omega
        · exact ih _ hk hs

end Cut

/-- Two texts from an offset on that are the same but for what stands in some regions. -/
inductive Alike (p : Profile) : Nat → List Span → List Char → List Char → Prop
  | rest (offset : Nat) (rest : List Char) : Alike p offset [] rest rest
  | region {offset : Nat} {spans : List Span} {front inside inside' back back' : List Char}
      (hinside : p.Sealed inside back) (hinside' : p.Sealed inside' back')
      (hwidth : Text.width inside' = Text.width inside)
      (hback : Alike p (offset + Text.width (front ++ inside)) spans back back') :
      Alike p offset (⟨offset + Text.width front, offset + Text.width (front ++ inside)⟩ :: spans)
        (front ++ (inside ++ back)) (front ++ (inside' ++ back'))

namespace Alike

variable {p : Profile} {offset : Nat} {spans : List Span} {rest rest' : List Char}

/-- The parts of two lists of stretches in front of a region and behind it are the same outside
of regions, if the lists are made up of common stretches in front, stretches inside and
stretches behind. -/
lemma filter_outside_eq {first : Span} {spans found hidden hidden' later later' : List Span}
    (hhidden : ∀ s ∈ hidden ++ hidden', first.start ≤ s.start ∧ s.start < first.stop)
    (hlater : ∀ s ∈ later ++ later', first.stop ≤ s.start)
    (heq : later.filter (Span.outside spans ·.start) = later'.filter (Span.outside spans ·.start)) :
    (found ++ (hidden ++ later)).filter (Span.outside (first :: spans) ·.start) =
      (found ++ (hidden' ++ later')).filter (Span.outside (first :: spans) ·.start) := by
  have hnone (ss : List Span) (hss : ∀ s ∈ ss, first.start ≤ s.start ∧ s.start < first.stop) :
      ss.filter (Span.outside (first :: spans) ·.start) = [] := by
    rw [List.filter_eq_nil_iff]
    intro s hs
    have hs' := hss s hs
    rw [Bool.not_eq_true, Span.outside_eq_false_iff]
    exact ⟨first, List.mem_cons_self, hs'⟩
  have hbehind (ss : List Span) (hss : ∀ s ∈ ss, first.stop ≤ s.start) :
      ss.filter (Span.outside (first :: spans) ·.start) =
        ss.filter (Span.outside spans ·.start) := by
    apply List.filter_congr
    intro s hs
    simp [Span.outside_cons, hss s hs]
  rw [List.filter_append, List.filter_append, List.filter_append, List.filter_append,
    hnone hidden fun s hs => hhidden s (List.mem_append_left _ hs),
    hnone hidden' fun s hs => hhidden s (List.mem_append_right _ hs),
    hbehind later fun s hs => hlater s (List.mem_append_left _ hs),
    hbehind later' fun s hs => hlater s (List.mem_append_right _ hs), heq]

/-- Outside of the regions the same keywords are found. -/
lemma keywords_eq (hp : p.Sealing) {words : List (List Char)} (hsub : words ⊆ p.words)
    (h : Alike p offset spans rest rest') (fresh : Bool) :
    (Keyword.spansFrom (Keyword.ofWords p.caseSensitive words) fresh 0 offset rest).filter
      (Span.outside spans ·.start) =
      (Keyword.spansFrom (Keyword.ofWords p.caseSensitive words) fresh 0 offset rest').filter
        (Span.outside spans ·.start) := by
  induction h generalizing fresh with
  | rest => rfl
  | @region offset spans front inside inside' back back' hinside hinside' hwidth _ ih =>
    obtain ⟨found, hidden, hidden', -, hhidden, hspans, hspans'⟩ :=
      Keyword.spansFrom_region hp hsub hinside hinside' hwidth front fresh offset
    rw [hspans, hspans']
    refine filter_outside_eq (fun s hs => ?_) (fun s hs => ?_) (ih false)
    · have hs' := hhidden s hs
      exact ⟨hs'.1, hs'.2.1.trans_le hs'.2.2⟩
    · rcases List.mem_append.mp hs with hs | hs
      · exact ((Keyword.spansFrom_ordered _ _ _ _ _).1 s hs).2
      · exact ((Keyword.spansFrom_ordered _ _ _ _ _).1 s hs).2

lemma brackets_eq (set : CharSet) (h : Alike p offset spans rest rest') :
    (set.spansFrom offset rest).filter (Span.outside spans ·.start) =
      (set.spansFrom offset rest').filter (Span.outside spans ·.start) := by
  have hbounds (set : CharSet) (offset : Nat) (cs : List Char) (s : Span)
      (hs : s ∈ set.spansFrom offset cs) :
      offset ≤ s.start ∧ s.start < offset + Text.width cs := by
    obtain ⟨front, c, back, rfl, -, hstart, -⟩ := CharSet.mem_spansFrom hs
    have hc := c.utf8Size_pos
    simp only [Text.width_append, Text.width_cons]
    omega
  induction h with
  | rest => rfl
  | @region offset spans front inside inside' back back' hinside hinside' hwidth _ ih =>
    have hoffset : offset + Text.width (front ++ inside) = offset + Text.width front +
        Text.width inside := by
      rw [Text.width_append, Nat.add_assoc]
    rw [hoffset] at ih ⊢
    rw [CharSet.spansFrom_append, CharSet.spansFrom_append, CharSet.spansFrom_append,
      CharSet.spansFrom_append, hwidth]
    refine filter_outside_eq (fun s hs => ?_) (fun s hs => ?_) ih
    · rcases List.mem_append.mp hs with hs | hs
      · exact hbounds _ _ _ s hs
      · exact hwidth ▸ hbounds _ _ _ s hs
    · rcases List.mem_append.mp hs with hs | hs
      · exact (hbounds _ _ _ s hs).1
      · exact (hbounds _ _ _ s hs).1

/-- Texts that are cut by regions at the same offsets and have the same bytes outside
of them are alike. -/
lemma of_cuts (h : Cut p offset spans rest) (h' : Cut p offset spans rest')
    (hbytes : ∀ i, Span.outside spans (offset + i) = true →
      (Text.bytes rest)[i]? = (Text.bytes rest')[i]?) :
    Alike p offset spans rest rest' := by
  induction h generalizing rest' with
  | rest offset rest =>
    obtain rfl : rest = rest' := Text.bytes_injective (List.ext_getElem? fun i => hbytes i rfl)
    exact .rest _ _
  | @region offset spans front inside back hinside hback ih =>
    obtain ⟨front', inside', back', rfl, hfront, hstop, hinside', hback'⟩ := h'.of_cons
    obtain rfl : front' = front := by
      refine Text.eq_of_getElem?_bytes hfront fun i hi => (hbytes i ?_).symm
      rw [hfront] at hi
      rw [Span.outside_cons, Bool.and_eq_true, Span.outside, List.all_eq_true]
      refine ⟨by simp [hi], fun s hs => ?_⟩
      have hle := (hback.le_start hs).1
      rw [Text.width_append] at hle
      simp only [Bool.or_eq_true, decide_eq_true_eq]
      omega
    have hwidth : Text.width inside' = Text.width inside := by
      rw [Text.width_append, Text.width_append] at hstop
      omega
    refine .region hinside hinside' hwidth (ih hback' fun i hi => ?_)
    have hbehind := hbytes (Text.width (front' ++ inside) + i) (by
      rw [Span.outside_cons, Bool.and_eq_true, ← Nat.add_assoc]
      exact ⟨by simp, hi⟩)
    rw [← List.append_assoc, ← List.append_assoc, Text.bytes_append,
      Text.bytes_append (front' ++ inside')] at hbehind
    rw [List.getElem?_append_right (by rw [Text.length_bytes]; omega),
      List.getElem?_append_right (by rw [Text.length_bytes]; omega), Text.length_bytes,
      Text.length_bytes, hstop, Nat.add_sub_cancel_left] at hbehind
    exact hbehind

end Alike
end BlockHue
