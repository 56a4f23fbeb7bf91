import BlockHue.Proofs.Keyword
import BlockHue.Proofs.Pattern.Ahead

/-! Keywords written as plain words. `Keyword.ofWords` is the pattern of a list of words without
special characters; what it finds is the first of the words that the text begins with, up to case
where case does not count, with white space or the end of the text behind it. -/
namespace BlockHue

/-- Two texts are the same, character by character, up to case unless case counts. -/
def Text.Same (caseSensitive : Bool) (a b : List Char) : Prop :=
  if caseSensitive then a = b else a.map Text.fold = b.map Text.fold

instance (caseSensitive : Bool) (a b : List Char) : Decidable (Text.Same caseSensitive a b) :=
  inferInstanceAs (Decidable (if caseSensitive then _ else _))

/-- What a character counts as: itself, or its folded form if case does not count. -/
def Text.canon (caseSensitive : Bool) (c : Char) : Char := if caseSensitive then c else Text.fold c

lemma Text.same_iff {caseSensitive : Bool} {a b : List Char} :
    Text.Same caseSensitive a b ↔ a.map (Text.canon caseSensitive) =
      b.map (Text.canon caseSensitive) := by
  cases caseSensitive with
  | true =>
    have hcanon : Text.canon true = id := rfl
    simp [Text.Same, hcanon]
  | false => rfl

/-- The code points of white space. -/
def Text.spaces : List Nat :=
  List.range' 9 5 ++ [0x20, 0x85, 0xA0, 0x1680] ++ List.range' 0x2000 11 ++
    [0x2028, 0x2029, 0x202F, 0x205F, 0x3000]

lemma Text.toNat_mem_spaces {c : Char} (h : Text.isSpace c = true) : c.toNat ∈ Text.spaces := by
  simp only [Text.isSpace, Bool.or_eq_true, Bool.and_eq_true, decide_eq_true_eq, beq_iff_eq] at h
  simp only [Text.spaces, List.mem_append, List.mem_range'_1, List.mem_cons, List.not_mem_nil,
    or_false]
  omega

/-- A property of all white space is checked code point by code point. -/
lemma Text.of_isSpace {P : Char → Prop} (hP : ∀ n ∈ Text.spaces, P (Char.ofNat n)) {c : Char}
    (h : Text.isSpace c = true) : P c := by
  have hc := hP c.toNat (Text.toNat_mem_spaces h)
  rwa [Char.ofNat_toNat] at hc

lemma Text.fold_eq_self_of_isSpace {c : Char} (h : Text.isSpace c = true) : Text.fold c = c := by
  refine Text.of_isSpace (P := fun c => Text.fold c = c) ?_ h
  decide +kernel

lemma Text.canon_eq_self_of_isSpace (caseSensitive : Bool) {c : Char} (h : Text.isSpace c = true) :
    Text.canon caseSensitive c = c := by
  cases caseSensitive with
  | true => rfl
  | false => exact fold_eq_self_of_isSpace h

lemma Text.isSpace_eq_false_of_canon {caseSensitive : Bool} {c : Char}
    (h : Text.isSpace (Text.canon caseSensitive c) = false) : Text.isSpace c = false := by
  by_contra hspace
  have hspace : Text.isSpace c = true := by simpa using hspace
  rw [Text.canon_eq_self_of_isSpace caseSensitive hspace, hspace] at h
  contradiction

namespace Text.Same

variable {caseSensitive : Bool} {a b : List Char}

@[simp] lemma nil_nil : Text.Same caseSensitive [] [] := by cases caseSensitive <;> rfl

lemma cons_iff {x c : Char} :
    Text.Same caseSensitive (x :: a) (c :: b) ↔ Text.Same caseSensitive [x] [c] ∧
      Text.Same caseSensitive a b := by
  cases caseSensitive <;> simp [Text.Same]

@[simp] lemma not_nil_cons {c : Char} : ¬ Text.Same caseSensitive [] (c :: b) := by
  cases caseSensitive <;> simp [Text.Same]

lemma length_eq (h : Text.Same caseSensitive a b) : a.length = b.length := by
  cases caseSensitive with
  | true => exact congrArg List.length h
  | false => simpa using congrArg List.length (h : a.map Text.fold = b.map Text.fold)

/-- What is the same as a text without white space has none either. -/
lemma isSpace_eq_false (h : Text.Same caseSensitive a b)
    (hb : ∀ c ∈ b, Text.isSpace (Text.canon caseSensitive c) = false) :
    ∀ c ∈ a, Text.isSpace c = false := by
  intro c hc
  have hmem : Text.canon caseSensitive c ∈ b.map (Text.canon caseSensitive) :=
    Text.same_iff.mp h ▸ List.mem_map_of_mem hc
  obtain ⟨d, hd, hcd⟩ := List.mem_map.mp hmem
  have hspace := hb d hd
  rw [hcd] at hspace
  exact Text.isSpace_eq_false_of_canon hspace

end Text.Same

namespace Thread

/-- A thread that takes so many characters. -/
def advance (n : Nat) (t : Thread) : Thread := Thread.next^[n] t

lemma advance_succ (n : Nat) (t : Thread) : t.advance (n + 1) = t.next.advance n := rfl

lemma advance_leads (n : Nat) (t : Thread) :
    t.place.Leads (t.place.rest.take n) (t.advance n).place := by
  induction n generalizing t with
  | zero => exact Place.Leads.refl _
  | succ n ih =>
    rw [advance_succ]
    rcases hrest : t.place.rest with _ | ⟨c, cs⟩
    · have hnext : t.next = t := by simp [Thread.next, Place.next, hrest]
      simpa [hrest, hnext] using ih t
    · have hnext : t.next.place.rest = cs := by simp [Thread.next, Place.next, hrest]
      have hstep : t.place.Leads [c] t.next.place := Place.Leads.next hrest
      exact hstep.trans (hnext ▸ ih t.next)

lemma advance_rest (n : Nat) (t : Thread) : (t.advance n).place.rest = t.place.rest.drop n := by
  have hrest := (advance_leads n t).rest
  exact (List.append_cancel_left ((List.take_append_drop n _).trans hrest)).symm

lemma advance_offset (n : Nat) (t : Thread) :
    (t.advance n).offset = t.offset + Text.width (t.place.rest.take n) :=
  (advance_leads n t).offset

lemma advance_advance (m n : Nat) (t : Thread) : (t.advance m).advance n = t.advance (m + n) := by
  rw [advance, advance, advance, ← Function.iterate_add_apply, Nat.add_comm]

lemma advance_groups (n : Nat) (t : Thread) : (t.advance n).groups = t.groups := by
  induction n generalizing t with
  | zero => rfl
  | succ n ih => exact ih t.next

/-- The thread behind a word, where the text goes on with the word. -/
def behind (caseSensitive : Bool) (w : List Char) (t : Thread) : List Thread :=
  if Text.Same caseSensitive (t.place.rest.take w.length) w then [t.advance w.length] else []

@[simp] lemma behind_nil (caseSensitive : Bool) : behind caseSensitive [] = fun t => [t] := by
  funext t
  simp [behind, advance]

lemma behind_cons (caseSensitive : Bool) (c : Char) (w : List Char) (t : Thread) :
    (t.behind caseSensitive [c]).flatMap (behind caseSensitive w) =
      t.behind caseSensitive (c :: w) := by
  rcases hrest : t.place.rest with _ | ⟨x, cs⟩
  · simp [behind, hrest]
  · have hnext : (t.advance 1).place.rest = cs := by rw [advance_rest, hrest]; rfl
    have hcons : Text.Same caseSensitive (x :: cs.take w.length) (c :: w) ↔ _ := Text.Same.cons_iff
    by_cases hx : Text.Same caseSensitive [x] [c] <;>
      simp [behind, hrest, hnext, hcons, hx, advance_advance, Nat.add_comm]

end Thread

namespace Pattern

def letter (caseSensitive : Bool) (c : Char) : Pattern :=
  one (if caseSensitive then .single c else .letter c)

def word (caseSensitive : Bool) (w : List Char) : Pattern := chain (w.map (letter caseSensitive))

variable {caseSensitive : Bool}

/-- A choice has the threads of its members, one member after the other. -/
lemma threads_choice (ps : List Pattern) (t : Thread) :
    (choice ps).threads t = ps.flatMap fun p => p.threads t := by
  induction ps with
  | nil => cases hrest : t.place.rest <;> simp [choice, threads, hrest, CharSet.contains]
  | cons p ps ih =>
    cases ps with
    | nil => simp [choice]
    | cons q ps => rw [List.flatMap_cons, ← ih]; rfl

@[simp] lemma search?_never (place : Place) : never.search? place = none := by
  rw [Option.eq_none_iff_forall_ne_some]
  intro m hm
  have hmatch := (search?_spec hm).2
  have hnone : never.threads { place := m.start } = [] := threads_choice [] _
  simp [matchAt?_eq, hnone] at hmatch

lemma threads_seq_of_single {p q : Pattern} (h : p.single = true) (t : Thread) :
    (seq p q).threads t = (p.threads t).flatMap q.threads := by
  simp [threads, h]

/-- Dropping the later of two threads at one place leaves the preferred thread. -/
lemma head?_threads_seq (p q : Pattern) (t : Thread) :
    ((seq p q).threads t).head? = ((p.threads t).flatMap q.threads).head? := by
  simp only [threads]
  split
  · rfl
  · cases (p.threads t).flatMap q.threads <;> simp [Threads.distinct, Threads.distinctFrom]

lemma threads_letter (c : Char) (t : Thread) :
    (letter caseSensitive c).threads t = t.behind caseSensitive [c] := by
  rcases hrest : t.place.rest with _ | ⟨x, cs⟩
  · simp [letter, threads, Thread.behind, hrest]
  · cases caseSensitive <;>
      simp [letter, threads, Thread.behind, hrest, Text.Same, CharSet.contains, Thread.advance]

/-- Letters that follow a pattern with at most one thread make up a word behind it. -/
lemma threads_letters {p : Pattern} (hp : p.single = true) (w : List Char) (t : Thread) :
    ((w.map (letter caseSensitive)).foldl seq p).threads t =
      (p.threads t).flatMap (Thread.behind caseSensitive w) := by
  induction w generalizing p with
  | nil => simp
  | cons c w ih =>
    have hsingle : (seq p (letter caseSensitive c)).single = true := by simp [single, hp, letter]
    rw [List.map_cons, List.foldl_cons, ih hsingle, threads_seq_of_single hp, List.flatMap_assoc]
    congr 1
    funext v
    rw [threads_letter, Thread.behind_cons]

/-- A word has one thread where the text goes on with it, and none elsewhere. -/
lemma threads_word (w : List Char) (t : Thread) :
    (word caseSensitive w).threads t = t.behind caseSensitive w := by
  cases w with
  | nil => simp [word, chain, threads]
  | cons c w =>
    have hfold : word caseSensitive (c :: w) =
        (w.map (letter caseSensitive)).foldl seq (letter caseSensitive c) := rfl
    rw [hfold, threads_letters rfl, threads_letter, Thread.behind_cons]

end Pattern

namespace Keyword
open Pattern

/-- A pattern, recorded as the keyword, then white space or the end of the text. -/
def bounded (p : Pattern) : Pattern :=
  .seq (.seq (.look .textStart) (.group groupName p)) (.alt (.one .space) (.look .textEnd))

/-- White space or the end of the text comes next. -/
def closed (back : List Char) : Bool := back.head?.all Text.isSpace

/-- A thread goes on behind a keyword if white space or the end of the text comes next, with the
groups that it has. -/
lemma head?_threads_closed (t : Thread) :
    ((Pattern.alt (.one .space) (.look .textEnd)).threads t).head?.map Thread.groups =
      if closed t.place.rest then some t.groups else none := by
  rcases hrest : t.place.rest with _ | ⟨c, cs⟩
  · simp [threads, hrest, closed, Look.holds]
  · by_cases hc : Text.isSpace c <;>
      simp [threads, hrest, closed, Look.holds, CharSet.contains, hc, Thread.next]

/-- The keyword of a bounded pattern is that of the first thread behind which white space or the end
of the text comes. -/
lemma lengthAt?_bounded (p : Pattern) (rest : List Char) :
    lengthAt? (bounded p) rest =
      ((p.threads { place := Place.front rest }).find? fun u => closed u.place.rest).bind fun u =>
        if u.offset == 0 then none else some u.offset := by
  have hkeyword :
      (Pattern.seq (.look .textStart) (.group groupName p)).threads { place := Place.front rest } =
      (p.threads { place := Place.front rest }).map (Thread.passGroup groupName 0) := by
    simp [threads, Pattern.single, Place.front, Look.holds, Thread.offset]
  have hhead : ((bounded p).threads { place := Place.front rest }).head?.map Thread.groups =
      ((p.threads { place := Place.front rest }).find? fun u => closed u.place.rest).map
        fun u => (groupName, ⟨0, u.offset⟩) :: u.groups := by
    rw [bounded, head?_threads_seq, hkeyword]
    induction p.threads { place := Place.front rest } with
    | nil => rfl
    | cons u us ih =>
      rw [List.map_cons, List.flatMap_cons, List.head?_append, Option.map_or, ih,
        head?_threads_closed, List.find?_cons]
      cases hclosed : closed u.place.rest <;> simp [hclosed, Thread.passGroup]
  have hanchored : (bounded p).anchored = true := rfl
  simp only [lengthAt?, search?, hanchored, if_true, matchAt?_eq]
  cases hu : ((bounded p).threads { place := Place.front rest }).head? with
  | none =>
    rw [hu, Option.map_none] at hhead
    rw [Option.map_eq_none_iff.mp hhead.symm]
    rfl
  | some u =>
    rw [hu, Option.map_some] at hhead
    obtain ⟨v, hv, hgroups⟩ := Option.map_eq_some_iff.mp hhead.symm
    rw [hv]
    simp [Match.group?, ← hgroups, Span.length]

/-- The pattern of a list of words: one of them, recorded as the keyword, then white space or
the end of the text. -/
def ofWords (caseSensitive : Bool) : List (List Char) → Pattern
  | [] => .never
  | words =>
    .seq (.seq (.look .textStart) (.group groupName (choice (words.map (word caseSensitive)))))
      (.alt (.one .space) (.look .textEnd))

/-- The text begins with a word, and white space or nothing comes behind it. -/
def fits (caseSensitive : Bool) (rest w : List Char) : Bool :=
  decide (Text.Same caseSensitive (rest.take w.length) w) && closed (rest.drop w.length)

/-- The keyword in front of a text is the first of the words that fits. -/
lemma lengthAt?_ofWords (caseSensitive : Bool) (words : List (List Char)) (rest : List Char) :
    lengthAt? (ofWords caseSensitive words) rest =
      (words.find? (fits caseSensitive rest)).bind fun w =>
        if Text.width (rest.take w.length) == 0 then none
        else some (Text.width (rest.take w.length)) := by
  cases words with
  | nil =>
    have hnever : lengthAt? .never rest = none := by simp [lengthAt?]
    simpa [ofWords] using hnever
  | cons w words =>
    have hbounded : ofWords caseSensitive (w :: words) =
        bounded (choice ((w :: words).map (word caseSensitive))) := rfl
    rw [hbounded, lengthAt?_bounded, threads_choice, List.flatMap_map]
    induction w :: words with
    | nil => rfl
    | cons w words ih =>
      set t : Thread := { place := Place.front rest }
      have hplace : t.place.rest = rest := rfl
      have hrest : (t.advance w.length).place.rest = rest.drop w.length := Thread.advance_rest _ _
      have hoffset : (t.advance w.length).offset = Text.width (rest.take w.length) :=
        (Thread.advance_offset _ _).trans (Nat.zero_add _)
      rw [List.flatMap_cons, List.find?_append, threads_word, List.find?_cons]
      by_cases hsame : Text.Same caseSensitive (rest.take w.length) w
      · cases hclosed : closed (rest.drop w.length) with
        | false => simpa [Thread.behind, fits, hplace, hsame, hrest, hclosed] using ih
        | true => simp [Thread.behind, fits, hplace, hsame, hrest, hoffset, hclosed]
      · simpa [Thread.behind, fits, hplace, hsame] using ih

/-- A keyword is one of the words, with white space or the end of the text behind it. -/
lemma word_of_lengthAt? {caseSensitive : Bool} {words : List (List Char)} {rest : List Char}
    {n : Nat} (h : lengthAt? (ofWords caseSensitive words) rest = some n) :
    ∃ w ∈ words, ∃ taken back, Text.Same caseSensitive taken w ∧ rest = taken ++ back ∧
      closed back = true ∧
      n = Text.width taken := by
  rw [lengthAt?_ofWords] at h
  obtain ⟨w, hw, h⟩ := Option.bind_eq_some_iff.mp h
  have hfits := List.find?_some hw
  rw [fits, Bool.and_eq_true, decide_eq_true_eq] at hfits
  refine ⟨w, List.mem_of_find?_eq_some hw, _, _, hfits.1, (List.take_append_drop _ _).symm, hfits.2,
    ?_⟩
  split at h
  · contradiction
  · exact (Option.some.inj h).symm

/-- The word `w` stands by itself between `front` and `back` and is one of the words, up to case
unless case counts. -/
structure Stands (caseSensitive : Bool) (words : List (List Char)) (front w back : List Char) :
    Prop where
  word : ∃ v ∈ words, Text.Same caseSensitive w v
  fresh : fresh front = true
  closed : closed back = true

lemma Found.stands {caseSensitive : Bool} {words : List (List Char)} {text front rest : List Char}
    {s : Span} (h : Found (ofWords caseSensitive words) text s front rest) :
    ∃ w back, text = front ++ w ++ back ∧ s.stop = Text.width (front ++ w) ∧
      Stands caseSensitive words front w back := by
  obtain ⟨n, hn, hstop⟩ := h.stop
  obtain ⟨v, hv, w, back, hsame, hrest, hclosed, rfl⟩ := word_of_lengthAt? hn
  refine ⟨w, back, ?_, ?_, ⟨v, hv, hsame⟩, h.fresh, hclosed⟩
  · rw [h.text, hrest, List.append_assoc]
  · rw [hstop, h.start, Text.width_append]

lemma Stands.mono {caseSensitive : Bool} {words words' : List (List Char)}
    {front w back : List Char} (h : Stands caseSensitive words front w back)
    (hsub : words ⊆ words') : Stands caseSensitive words' front w back := by
  obtain ⟨⟨v, hv, hsame⟩, hfresh, hclosed⟩ := h
  exact ⟨⟨v, hsub hv, hsame⟩, hfresh, hclosed⟩

end Keyword
end BlockHue
