import BlockHue.Proofs.Delimiter

/-! Regions between literal delimiters, seen from their first character. A block with literal
delimiters is taken up to the closing text that is nearest to the opening one, and a line region up
to the end of the line. -/
namespace BlockHue
open Pattern Threads

/-- Behind a word is the thread that has passed it, if the text goes on with the word. -/
lemma Thread.behind_eq (w : List Char) (t : Thread) :
    t.behind true w = if w.isPrefixOf t.place.rest then [t.advance w.length] else [] := by
  have hbegins : Text.Same true (t.place.rest.take w.length) w ↔
      w.isPrefixOf t.place.rest = true := by
    rw [List.isPrefixOf_iff_prefix, List.prefix_iff_eq_take, eq_comm]
    rfl
  simp only [behind, hbegins]

namespace Pattern

lemma single_letters {p : Pattern} (hp : p.single = true) (w : List Char) :
    ((w.map (letter true)).foldl seq p).single = true := by
  induction w generalizing p with
  | nil => exact hp
  | cons c w ih => exact ih (by simp [single, hp, letter])

lemma single_word (w : List Char) : (word true w).single = true := by
  cases w with
  | nil => rfl
  | cons c w => exact single_letters rfl w

/-- Behind as few characters as possible a word is found where it is nearest. -/
lemma head?_runStream_word (z cs : List Char) (t : Thread) (ht : t.place.rest = cs) :
    ((runStream .any cs 0 none t).toList.flatMap (Thread.behind true z)).head? =
      (cs.tails.findIdx? z.isPrefixOf).map fun k => t.advance (k + z.length) := by
  induction cs generalizing t with
  | nil =>
    by_cases hz : z.isPrefixOf [] <;> simp [runStream, LazyList.toList, Thread.behind_eq, ht, hz]
  | cons c cs ih =>
    have hnext : t.next.place.rest = cs := by simp [Thread.next, Place.next, ht]
    have hany : CharSet.any.contains c = true := rfl
    have hstream : (runStream .any (c :: cs) 0 none t).toList =
        t :: (runStream .any cs 0 none t.next).toList := by
      rw [runStream.eq_def]
      simp [hany, LazyList.toList]
    rw [hstream, List.flatMap_cons, List.head?_append, ih t.next hnext, Thread.behind_eq, ht,
      List.tails_cons, List.findIdx?_cons]
    by_cases hz : z.isPrefixOf (c :: cs)
    · simp [hz]
    · have hstep (k : Nat) : t.next.advance (k + z.length) = t.advance (k + 1 + z.length) := by
        rw [← Thread.advance_succ, Nat.add_right_comm]
      simp [hz, hstep, Function.comp_def]

/-- The preferred thread of a block stops behind the nearest closing text. -/
lemma head?_threads_block (a z : List Char) (t : Thread) :
    ((block true ⟨false, a⟩ ⟨false, z⟩).threads t).head? =
      if a.isPrefixOf t.place.rest then
        ((t.place.rest.drop a.length).tails.findIdx? z.isPrefixOf).map fun k =>
          t.advance (a.length + k + z.length)
      else none := by
  have hopening : (seq (word true a) (run .any 0 none false)).threads t =
      (t.behind true a).flatMap fun u => (runStream .any u.place.rest 0 none u).toList := by
    rw [threads_seq_of_single (single_word a), threads_word]
    congr 1
    funext u
    simp [threads, runStops_eq]
  have hblock : block true ⟨false, a⟩ ⟨false, z⟩ =
      seq (seq (word true a) (run .any 0 none false)) (word true z) := rfl
  have hclosing : (word true z).threads = Thread.behind true z := funext (threads_word z)
  rw [hblock, head?_threads_seq, hopening, hclosing, Thread.behind_eq]
  by_cases ha : a.isPrefixOf t.place.rest
  · have hrest : (t.advance a.length).place.rest = t.place.rest.drop a.length :=
      Thread.advance_rest _ _
    simp only [ha, if_true, List.flatMap_singleton, hrest, head?_runStream_word z _ _ hrest,
      Thread.advance_advance, Nat.add_assoc]
  · simp [ha]

/-- Behind the opening text of a line region the rest of the line is taken. -/
lemma head?_threads_rest {w : List Char} (hw : '\n' ∉ w) {t : Thread}
    (ht : w.isPrefixOf t.place.rest = true) :
    ((run (.compl (.single '\n')) 0 none true).threads (t.advance w.length)).head? =
      some (t.advance (t.place.rest.takeWhile (· != '\n')).length) := by
  obtain ⟨back, hback⟩ := List.isPrefixOf_iff_prefix.mp ht
  have hrest : (t.advance w.length).place.rest = back := by
    rw [Thread.advance_rest, ← hback, List.drop_left]
  have hset : (CharSet.compl (.single '\n')).contains = (· != '\n') := rfl
  have hline : (w ++ back).takeWhile (· != '\n') = w ++ back.takeWhile (· != '\n') := by
    apply List.takeWhile_append_of_pos
    intro c hc
    rw [bne_iff_ne]
    rintro rfl
    exact hw hc
  simp only [threads, if_true, hrest, head?_runStops, hset]
  rw [Thread.advance_advance, ← hback, hline, List.length_append]

lemma line_words (w : List Char) (ws : List (List Char)) :
    line true ((w :: ws).map (Delimiter.mk false)) =
      seq (choice ((w :: ws).map (word true))) (run (.compl (.single '\n')) 0 none true) := by
  have hwords : ((w :: ws).map (Delimiter.mk false)).map (·.pattern true) =
      (w :: ws).map (word true) := List.map_map
  rw [← hwords]
  rfl

/-- Whichever of some words the text goes on with, the rest of the line is taken. -/
lemma head?_behind_rest {ws : List (List Char)} (hws : ∀ w ∈ ws, '\n' ∉ w) (t : Thread) :
    ((ws.flatMap (t.behind true)).flatMap (run (.compl (.single '\n')) 0 none true).threads).head? =
      if ws.any (·.isPrefixOf t.place.rest) then
        some (t.advance (t.place.rest.takeWhile (· != '\n')).length) else none := by
  induction ws with
  | nil => rfl
  | cons w ws ih =>
    have htail := ih fun v hv => hws v (List.mem_cons_of_mem w hv)
    rw [List.flatMap_cons, List.flatMap_append, List.head?_append, htail, Thread.behind_eq,
      List.any_cons]
    by_cases hw : w.isPrefixOf t.place.rest
    · simp [hw, head?_threads_rest (hws w List.mem_cons_self) hw]
    · simp [hw]

/-- The preferred thread of a line region stops at the end of the line. -/
lemma head?_threads_line {ws : List (List Char)} (hws : ∀ w ∈ ws, '\n' ∉ w) (t : Thread) :
    ((line true (ws.map (Delimiter.mk false))).threads t).head? =
      if ws.any (·.isPrefixOf t.place.rest) then
        some (t.advance (t.place.rest.takeWhile (· != '\n')).length) else none := by
  cases ws with
  | nil =>
    have hnone : never.threads t = [] := threads_choice [] t
    simp [line, hnone]
  | cons w ws =>
    have hwords : (fun v => (word true v).threads t) = t.behind true :=
      funext fun v => threads_word v t
    rw [line_words, head?_threads_seq, threads_choice, List.flatMap_map, hwords]
    exact head?_behind_rest hws t

end Pattern
end BlockHue
