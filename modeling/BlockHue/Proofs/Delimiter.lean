import BlockHue.Proofs.Pattern.Words
import BlockHue.Proofs.Region

/-! Regions between plain delimiters. The regions of a language whose delimiters are plain
characters begin with an opening delimiter; a block region ends with its closing delimiter, and a
line region in front of a newline or at the end of the text. -/
namespace BlockHue

/-- A delimiter is plain characters, which may have to stand at the start of a line. -/
structure Delimiter where
  lineStart : Bool
  text : List Char
  deriving DecidableEq, Repr

namespace Delimiter

/-- Reads a delimiter off its pattern, in which special characters follow a backslash. -/
def ofPattern (source : List Char) : Delimiter :=
  let anchor := "(?m:^)".toList
  let plain (cs : List Char) : List Char := cs.filter (· != '\\')
  if anchor.isPrefixOf source then ⟨true, plain (source.drop anchor.length)⟩
  else ⟨false, plain source⟩

def pattern (caseSensitive : Bool) (d : Delimiter) : Pattern :=
  if d.lineStart then .chain (.look .lineStart :: d.text.map (.letter caseSensitive))
  else .word caseSensitive d.text

end Delimiter

namespace Pattern
open Threads

variable {p q : Pattern} {t u : Thread} {caseSensitive : Bool}

lemma mem_threads_seq (h : u ∈ (seq p q).threads t) : ∃ v ∈ p.threads t, u ∈ q.threads v := by
  have hflat : u ∈ (p.threads t).flatMap q.threads := by
    simp only [threads] at h
    split at h
    · exact h
    · exact all_distinct (P := fun v => v ∈ (p.threads t).flatMap q.threads) (fun v hv => hv) _ u h
  exact List.mem_flatMap.mp hflat

lemma mem_threads_choice {ps : List Pattern} (h : u ∈ (choice ps).threads t) :
    ∃ p ∈ ps, u ∈ p.threads t := by
  rw [threads_choice] at h
  exact List.mem_flatMap.mp h

/-- A thread behind a word has taken the word. -/
lemma leads_of_mem_behind {w : List Char} (h : u ∈ t.behind caseSensitive w) :
    ∃ taken, Text.Same caseSensitive taken w ∧ t.place.Leads taken u.place := by
  unfold Thread.behind at h
  split at h
  next hsame =>
    obtain rfl := List.mem_singleton.mp h
    exact ⟨_, hsame, Thread.advance_leads _ _⟩
  next => contradiction

lemma leads_of_mem_delimiter {d : Delimiter} (h : u ∈ (d.pattern caseSensitive).threads t) :
    ∃ taken, Text.Same caseSensitive taken d.text ∧ t.place.Leads taken u.place := by
  unfold Delimiter.pattern at h
  split at h
  · have hchain : chain (.look .lineStart :: d.text.map (letter caseSensitive)) =
        (d.text.map (letter caseSensitive)).foldl seq (.look .lineStart) := rfl
    rw [hchain, threads_letters rfl] at h
    obtain ⟨v, hv, hu⟩ := List.mem_flatMap.mp h
    simp only [threads] at hv
    split at hv
    · obtain rfl := List.mem_singleton.mp hv
      exact leads_of_mem_behind hu
    · contradiction
  · rw [threads_word] at h
    exact leads_of_mem_behind h

/-- The preferred thread of a greedy run takes all characters of the set that come next. -/
lemma head?_runStops (set : CharSet) (cs : List Char) (t : Thread) (shorter : List Thread) :
    (runStops set cs 0 none t shorter).head? =
      some (t.advance (cs.takeWhile set.contains).length) := by
  induction cs generalizing t shorter with
  | nil => simp [runStops, Thread.advance]
  | cons c cs ih =>
    by_cases hc : set.contains c
    · have hstep : runStops set (c :: cs) 0 none t shorter =
          runStops set cs 0 none t.next (t :: shorter) := by
        simp [runStops, hc]
      rw [hstep, ih, List.takeWhile_cons, if_pos hc, List.length_cons, Thread.advance_succ]
    · simp [runStops, hc, Thread.advance]

/-- Behind the characters of the set that come next the text ends or goes on with a
character outside the set. -/
lemma rest_advance_takeWhile (set : CharSet) (t : Thread) :
    (t.advance (t.place.rest.takeWhile set.contains).length).place.rest.head?.all
      (!set.contains ·) = true := by
  have hfirst := List.head?_dropWhile_not set.contains t.place.rest
  have hdrop : (t.place.rest.takeWhile set.contains ++ t.place.rest.dropWhile set.contains).drop
      (t.place.rest.takeWhile set.contains).length = t.place.rest.dropWhile set.contains :=
    List.drop_left
  rw [List.takeWhile_append_dropWhile] at hdrop
  rw [Thread.advance_rest, hdrop]
  cases hhead : (t.place.rest.dropWhile set.contains).head? with
  | none => rfl
  | some c =>
    rw [hhead] at hfirst
    simpa using hfirst

/-- A region from an opening delimiter to the nearest closing one. -/
def block (caseSensitive : Bool) (opening closing : Delimiter) : Pattern :=
  .seq (.seq (opening.pattern caseSensitive) (.run .any 0 none false))
    (closing.pattern caseSensitive)

/-- A region from an opening delimiter to the end of the line. -/
def line (caseSensitive : Bool) : List Delimiter → Pattern
  | [] => .never
  | openings =>
    .seq (choice (openings.map (·.pattern caseSensitive)))
      (.run (.compl (.single '\n')) 0 none true)

lemma leads_of_mem_block {opening closing : Delimiter}
    (h : u ∈ (block caseSensitive opening closing).threads t) :
    ∃ a middle z, Text.Same caseSensitive a opening.text ∧ Text.Same caseSensitive z closing.text ∧
      t.place.Leads (a ++ middle ++ z) u.place := by
  obtain ⟨v, hv, hu⟩ := mem_threads_seq h
  obtain ⟨v', hv', hrun⟩ := mem_threads_seq hv
  obtain ⟨a, ha, hleads⟩ := leads_of_mem_delimiter hv'
  obtain ⟨middle, hmiddle⟩ := threads_ahead _ (Place.Ahead.refl _) v hrun
  obtain ⟨z, hz, hlast⟩ := leads_of_mem_delimiter hu
  exact ⟨a, middle, z, ha, hz, (hleads.trans hmiddle).trans hlast⟩

lemma leads_of_head?_line {openings : List Delimiter}
    (h : ((line caseSensitive openings).threads t).head? = some u) :
    ∃ d ∈ openings, ∃ a rest, Text.Same caseSensitive a d.text ∧ t.place.Leads (a ++ rest) u.place ∧
      u.place.rest.head?.all (· == '\n') = true := by
  cases openings with
  | nil =>
    have hnone : never.threads t = [] := threads_choice [] t
    simp [line, hnone] at h
  | cons d ds =>
    have hline : line caseSensitive (d :: ds) =
        .seq (choice ((d :: ds).map (·.pattern caseSensitive)))
      (.run (.compl (.single '\n')) 0 none true) := rfl
    rw [hline, head?_threads_seq, List.head?_flatMap] at h
    obtain ⟨v, hv, hu⟩ := List.exists_of_findSome?_eq_some h
    obtain ⟨p, hp, hv⟩ := mem_threads_choice hv
    obtain ⟨e, he, rfl⟩ := List.mem_map.mp hp
    obtain ⟨a, ha, hleads⟩ := leads_of_mem_delimiter hv
    simp only [threads, if_true, head?_runStops] at hu
    obtain rfl := Option.some.inj hu
    have hend := rest_advance_takeWhile (.compl (.single '\n')) v
    refine ⟨e, he, a, _, ha, hleads.trans (Thread.advance_leads _ v), ?_⟩
    simpa [CharSet.contains] using hend

end Pattern

namespace Regions
open Pattern

/-- The regions between plain delimiters. -/
def ofDelimiters (caseSensitive : Bool) (blocks : List (Delimiter × Delimiter))
    (lines : List Delimiter) : Regions where
  block := choice (blocks.map fun d => Pattern.block caseSensitive d.1 d.2)
  line := Pattern.line caseSensitive lines

variable {caseSensitive : Bool} {blocks : List (Delimiter × Delimiter)} {lines : List Delimiter}

/-- What stands in a region and behind it: a block between its delimiters, or the rest of a line
from a delimiter on. -/
def Delimits (caseSensitive : Bool) (blocks : List (Delimiter × Delimiter)) (lines : List Delimiter)
    (inside back : List Char) : Prop :=
  (∃ d ∈ blocks, ∃ a middle z, inside = a ++ middle ++ z ∧ Text.Same caseSensitive a d.1.text ∧
      Text.Same caseSensitive z d.2.text) ∨
    ∃ d ∈ lines, ∃ a rest, inside = a ++ rest ∧ Text.Same caseSensitive a d.text ∧
      back.head?.all (· == '\n') = true

lemma delimits_of_matchAt? {m : Match}
    (h : (ofDelimiters caseSensitive blocks lines).block.matchAt? m.start = some m ∨
      (ofDelimiters caseSensitive blocks lines).line.matchAt? m.start = some m) :
    ∃ inside, m.start.Leads inside m.stop ∧
      Delimits caseSensitive blocks lines inside m.stop.rest := by
  rw [matchAt?_eq, matchAt?_eq] at h
  rcases h with h | h
  · obtain ⟨u, hu, hm⟩ := Option.map_eq_some_iff.mp h
    have hstop : u.place = m.stop := by rw [← hm]
    obtain ⟨p, hp, hthread⟩ := mem_threads_choice (List.mem_of_mem_head? hu)
    obtain ⟨d, hd, rfl⟩ := List.mem_map.mp hp
    obtain ⟨a, middle, z, ha, hz, hleads⟩ := leads_of_mem_block hthread
    exact ⟨_, hstop ▸ hleads, .inl ⟨d, hd, a, middle, z, rfl, ha, hz⟩⟩
  · obtain ⟨u, hu, hm⟩ := Option.map_eq_some_iff.mp h
    have hstop : u.place = m.stop := by rw [← hm]
    obtain ⟨d, hd, a, rest, ha, hleads, hend⟩ := leads_of_head?_line hu
    exact ⟨_, hstop ▸ hleads, .inr ⟨d, hd, a, rest, rfl, ha, hstop ▸ hend⟩⟩

/-- Every region of a text stands between its delimiters. -/
lemma delimits_of_mem_find {text : List Char} {m : Match}
    (h : m ∈ (ofDelimiters caseSensitive blocks lines).find text) :
    ∃ front inside back, m.Marked text front inside back ∧
      Delimits caseSensitive blocks lines inside back := by
  obtain ⟨hin, hne⟩ := find_in h
  obtain ⟨front, inside, hfront, hinside, hnil⟩ := hin.taken hne
  obtain ⟨inside', hinside', hdelimits⟩ := delimits_of_matchAt? (matchAt?_of_mem_find h)
  obtain rfl : inside = inside' := List.append_cancel_right (hinside.rest.symm.trans hinside'.rest)
  exact ⟨front, inside, m.stop.rest, Match.marked_of_leads hfront hinside hnil, hdelimits⟩

end Regions
end BlockHue
