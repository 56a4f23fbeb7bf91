import BlockHue.Proofs.Boundary
import BlockHue.Proofs.Pattern.Words

/-! Literal text in patterns. A character that is not special stands for itself, and so does one
behind a backslash. A text denotes a pattern if it is read as that pattern wherever a pattern may
stand and leaves no group open. Main statement: a text that denotes a pattern is parsed as it. -/
namespace BlockHue.Pattern.Read

/-- The characters that stand for something else than themselves in a pattern. -/
def specials : List Char :=
  ['\\', '.', '+', '*', '?', '(', ')', '|', '[', ']', '\x7b', '\x7d', '^', '$']

/-- What a text stands for in which every special character, and maybe other punctuation, is behind
a backslash; `none` for any other text. -/
def literal? : List Char → Option (List Char)
  | [] => some []
  | '\\' :: c :: cs => if isEscapable c then (literal? cs).map (c :: ·) else none
  | c :: cs => if c ∈ specials then none else (literal? cs).map (c :: ·)

lemma literal?_cons {c : Char} (hc : c ∉ specials) (cs : List Char) :
    literal? (c :: cs) = (literal? cs).map (c :: ·) := by
  have hbackslash : c ≠ '\\' := fun heq => hc (heq ▸ by decide)
  rw [literal?.eq_def]
  simp [hbackslash, hc]

lemma literal?_of_plain {w : List Char} (h : ∀ c ∈ w, c ∉ specials) : literal? w = some w := by
  induction w with
  | nil => rfl
  | cons c w ih =>
    rw [literal?_cons (h c List.mem_cons_self), ih fun d hd => h d (List.mem_cons_of_mem c hd)]
    rfl

/-- A text with a backslash in front of every special character. -/
def escaped (w : List Char) : List Char :=
  w.flatMap fun c => if c ∈ specials then ['\\', c] else [c]

/-- Every text can be written as a literal. -/
lemma literal?_escaped (w : List Char) : literal? (escaped w) = some w := by
  have hescapable : specials.all isEscapable = true := by decide
  induction w with
  | nil => rfl
  | cons c w ih =>
    rw [escaped, List.flatMap_cons, ← escaped]
    by_cases hc : c ∈ specials
    · simp [hc, literal?, List.all_eq_true.mp hescapable c hc, ih]
    · simp [hc, literal?_cons hc, ih]

namespace Level

/-- A level with one more item for each character of a word. -/
def spell (caseSensitive : Bool) (level : Level) (w : List Char) : Level :=
  w.foldl (fun level c => level.push (letter caseSensitive c) 0) level

lemma patterns_spell (caseSensitive : Bool) (level : Level) (w : List Char) :
    (level.spell caseSensitive w).items.reverse.filterMap Item.pattern =
      level.items.reverse.filterMap Item.pattern ++ w.map (letter caseSensitive) ∧
      (level.spell caseSensitive w).branches = level.branches := by
  induction w generalizing level with
  | nil => simp [spell]
  | cons c w ih =>
    obtain ⟨hitems, hbranches⟩ := ih (level.push (letter caseSensitive c) 0)
    refine ⟨hitems.trans ?_, hbranches⟩
    simp [push]

lemma whole_spell (caseSensitive : Bool) (w : List Char) :
    (spell caseSensitive {} w).whole.pattern = word caseSensitive w := by
  obtain ⟨hitems, hbranches⟩ := patterns_spell caseSensitive {} w
  simp only [whole, branch, hitems, hbranches]
  rfl

/-- No item of a level is higher than `n`, and no branch higher than a node over such items. -/
structure Low (n : Nat) (level : Level) : Prop where
  items : ∀ i ∈ level.items, i.height ≤ n
  branches : ∀ b ∈ level.branches, b.height ≤ n + 1

lemma low_empty (n : Nat) : Low n {} := ⟨by simp, by simp⟩

lemma Low.push {n : Nat} {level : Level} (h : level.Low n) (p : Pattern) {height : Nat}
    (hle : height ≤ n) :
    (level.push p height).Low n := by
  refine ⟨fun i hi => ?_, h.branches⟩
  rcases List.mem_cons.mp hi with rfl | hi
  · exact hle
  · exact h.items i hi

lemma low_spell (caseSensitive : Bool) {level : Level} (h : level.Low 0) (w : List Char) :
    (level.spell caseSensitive w).Low 0 := by
  induction w generalizing level with
  | nil => exact h
  | cons c w ih => exact ih (h.push _ le_rfl)

lemma heightOver_le {n : Nat} {hs : List Nat} (h : ∀ k ∈ hs, k ≤ n) : heightOver hs ≤ n + 1 := by
  have hmax (hs : List Nat) (a : Nat) (ha : a ≤ n) (h : ∀ k ∈ hs, k ≤ n) : hs.foldl max a ≤ n := by
    induction hs generalizing a with
    | nil => exact ha
    | cons k hs ih =>
      exact ih (max a k) (max_le ha (h k List.mem_cons_self)) fun j hj =>
        h j (List.mem_cons_of_mem k hj)
  unfold heightOver
  split
  · exact Nat.zero_le _
  next k => exact (h k (List.mem_singleton_self k)).trans (Nat.le_succ n)
  · exact Nat.succ_le_succ (hmax hs 0 (Nat.zero_le n) h)

lemma Low.branch {n : Nat} {level : Level} (h : level.Low n) : level.branch.height ≤ n + 1 := by
  apply heightOver_le
  intro k hk
  obtain ⟨i, hi, rfl⟩ := List.mem_map.mp hk
  exact h.items i hi

lemma Low.nextBranch {n : Nat} {level : Level} (h : level.Low n) : level.nextBranch.Low n := by
  refine ⟨by simp [Level.nextBranch], fun b hb => ?_⟩
  rcases List.mem_cons.mp hb with rfl | hb
  · exact h.branch
  · exact h.branches b hb

lemma Low.whole {n : Nat} {level : Level} (h : level.Low n) : level.whole.height ≤ n + 2 := by
  apply heightOver_le
  intro k hk
  obtain ⟨b, hb, rfl⟩ := List.mem_map.mp hk
  exact h.nextBranch.branches b hb

end Level

variable [Dialect]

/-- From one state a text leads to the other, whatever follows it, with no more steps than
it has characters. -/
def Reads (st : State) (cs : List Char) (st' : State) : Prop :=
  ∃ n ≤ cs.length, ∀ fuel tail, steps (fuel + n) st (cs ++ tail) = steps fuel st' tail

lemma Reads.refl (st : State) : Reads st [] st := ⟨0, le_rfl, fun _ _ => rfl⟩

lemma Reads.append {st st' st'' : State} {a b : List Char} (ha : Reads st a st')
    (hb : Reads st' b st'') :
    Reads st (a ++ b) st'' := by
  obtain ⟨m, hm, ha⟩ := ha
  obtain ⟨n, hn, hb⟩ := hb
  refine ⟨n + m, by rw [List.length_append]; omega, fun fuel tail => ?_⟩
  rw [List.append_assoc, ← Nat.add_assoc, ha, hb]

/-- A character that is not special is an item of its own. -/
lemma step_plain (st : State) {c : Char} (hc : c ∉ specials) (cs : List Char) :
    step st c cs = some (st.push (charPattern st.flags c) 0, cs) := by
  unfold step
  split <;> first | rfl | exact absurd (by decide) hc

lemma step_escaped (st : State) {c : Char} (hc : isEscapable c = true) (cs : List Char) :
    step st '\\' (c :: cs) = some (st.push (charPattern st.flags c) 0, cs) := by
  simp [step, escape, hc, atomPattern?, plainChar?]

section
variable (caseSensitive : Bool) (frames : List Frame) (names : List String)

/-- Inside the groups `frames`, with what is read of the innermost one. -/
abbrev inside (level : Level) : State := ⟨{ ignoreCase := !caseSensitive }, frames, level, names⟩

lemma reads_char (level : Level) {c : Char} (hc : c ∉ specials) :
    Reads (inside caseSensitive frames names level) [c]
      (inside caseSensitive frames names (level.push (letter caseSensitive c) 0)) := by
  have hletter : charPattern { ignoreCase := !caseSensitive } c = letter caseSensitive c := by
    cases caseSensitive <;> rfl
  refine ⟨1, le_rfl, fun fuel tail => ?_⟩
  have hskip : skip { ignoreCase := !caseSensitive } ([c] ++ tail) = c :: tail := rfl
  rw [steps, hskip]
  simp only [step_plain _ hc, Option.bind_some, hletter]
  rfl

lemma reads_escaped (level : Level) {c : Char} (hc : isEscapable c = true) :
    Reads (inside caseSensitive frames names level) ['\\', c]
      (inside caseSensitive frames names (level.push (letter caseSensitive c) 0)) := by
  have hletter : charPattern { ignoreCase := !caseSensitive } c = letter caseSensitive c := by
    cases caseSensitive <;> rfl
  refine ⟨1, Nat.le_succ 1, fun fuel tail => ?_⟩
  have hskip : skip { ignoreCase := !caseSensitive } (['\\', c] ++ tail) = '\\' :: c :: tail := rfl
  rw [steps, hskip]
  simp only [step_escaped _ hc, Option.bind_some, hletter]
  rfl

/-- A literal text is read as the word that it stands for. -/
lemma reads_literal (level : Level) {source w : List Char} (h : literal? source = some w) :
    Reads (inside caseSensitive frames names level) source
      (inside caseSensitive frames names (level.spell caseSensitive w)) := by
  fun_induction literal? source generalizing level w with
  | case1 =>
    obtain rfl := Option.some.inj h
    exact .refl _
  | case2 c cs hc ih =>
    obtain ⟨w, hw, rfl⟩ := Option.map_eq_some_iff.mp h
    exact (reads_escaped caseSensitive frames names level hc).append (ih _ hw)
  | case3 => contradiction
  | case4 => contradiction
  | case5 c cs _ hc ih =>
    obtain ⟨w, hw, rfl⟩ := Option.map_eq_some_iff.mp h
    exact (reads_char caseSensitive frames names level hc).append (ih _ hw)

end

/-- A text is read as a pattern wherever a pattern may stand, its groups are closed again, and
nothing in it is higher than `n`. -/
def Denotes (caseSensitive : Bool) (n : Nat) (source : List Char) (p : Pattern) : Prop :=
  ∃ level : Level, level.whole.pattern = p ∧ level.Low n ∧ ∀ frames names,
    Reads (inside caseSensitive frames names {}) source (inside caseSensitive frames names level)

variable {caseSensitive : Bool} {n : Nat}

lemma denotes_literal {source w : List Char} (h : literal? source = some w) :
    Denotes caseSensitive 0 source (word caseSensitive w) :=
  ⟨_, Level.whole_spell caseSensitive w, Level.low_spell caseSensitive (Level.low_empty 0) w,
    fun frames names => reads_literal caseSensitive frames names {} h⟩

/-- In a group a text that denotes a pattern is one item. -/
lemma Denotes.group {source : List Char} {p : Pattern} (h : Denotes caseSensitive n source p) :
    ∃ height ≤ n + 3, ∀ level frames names,
      Reads (inside caseSensitive frames names level) ("(?:".toList ++ source ++ ")".toList)
        (inside caseSensitive frames names (level.push p height)) := by
  obtain ⟨inner, rfl, hlow, hreads⟩ := h
  refine ⟨inner.whole.height + 1, Nat.succ_le_succ hlow.whole, fun level frames names => ?_⟩
  set outer : Frame := ⟨none, { ignoreCase := !caseSensitive }, level⟩
  have hopen : Reads (inside caseSensitive frames names level) "(?:".toList
      (inside caseSensitive (outer :: frames) names {}) := ⟨1, by decide, fun _ _ => rfl⟩
  have hclose : Reads (inside caseSensitive (outer :: frames) names inner) ")".toList
      (inside caseSensitive frames names
        (level.push inner.whole.pattern (inner.whole.height + 1))) :=
    ⟨1, by decide, fun _ _ => rfl⟩
  exact (hopen.append (hreads _ names)).append hclose

/-- Texts that are tried in turn are branches, behind the branches that are there. -/
lemma reads_alternation {sources : List (List Char)} {ps : List Pattern} (hne : sources ≠ [])
    (h : List.Forall₂ (Denotes caseSensitive n) sources ps) (branches : List Branch)
    (hbranches : ∀ b ∈ branches, b.height ≤ n + 3 + 1) :
    ∃ level : Level, level.whole.pattern = choice (branches.reverse.map Branch.pattern ++ ps) ∧
      level.Low (n + 3) ∧
      ∀ frames names, Reads (inside caseSensitive frames names ⟨branches, []⟩) (alternation sources)
        (inside caseSensitive frames names level) := by
  induction h generalizing branches with
  | nil => contradiction
  | @cons source p sources ps hsource hsources ih =>
    obtain ⟨height, hle, hgroup⟩ := hsource.group
    have hlow : (Level.push ⟨branches, []⟩ p height).Low (n + 3) :=
      Level.Low.push ⟨by simp, hbranches⟩ p hle
    cases hsources with
    | nil =>
      rw [alternation_singleton]
      refine ⟨_, ?_, hlow, hgroup _⟩
      simp [Level.whole, Level.branch, Level.push, chain]
    | @cons other q sources ps hother hsources =>
      have hbranch (level : Level) (frames : List Frame) (names : List String) :
          Reads (inside caseSensitive frames names level) ['|']
            (inside caseSensitive frames names level.nextBranch) :=
        ⟨1, le_rfl, fun _ _ => rfl⟩
      obtain ⟨level, hpattern, hlevel, hrest⟩ := ih (List.cons_ne_nil other sources)
        (Level.push ⟨branches, []⟩ p height).nextBranch.branches hlow.nextBranch.branches
      rw [alternation_cons_cons]
      refine ⟨level, hpattern.trans ?_, hlevel, fun frames names => ?_⟩
      · simp [Level.nextBranch, Level.branch, Level.push, chain]
      · exact (hgroup _ frames names).append ((hbranch _ frames names).append (hrest frames names))

lemma denotes_alternation {sources : List (List Char)} {ps : List Pattern} (hne : sources ≠ [])
    (h : List.Forall₂ (Denotes caseSensitive n) sources ps) :
    Denotes caseSensitive (n + 3) (alternation sources) (choice ps) :=
  reads_alternation hne h [] (by simp)

/-- A text that is read to its end, with no group left open, is parsed as a pattern. -/
lemma parse?_of_steps {source : List Char} {level : Level} {k : Nat} (hk : k ≤ source.length)
    (h : steps (k + 1) (start (!caseSensitive)) source = some (inside caseSensitive [] [] level))
    (hheight : level.whole.height ≤ heightLimit) :
    parse? (!caseSensitive) source = some level.whole.pattern :=
  parse?_eq_some_iff.mpr ⟨_, steps_mono h (Nat.succ_le_succ hk), rfl, hheight, rfl⟩

/-- A text that denotes a pattern is parsed as it. -/
lemma Denotes.parse? {source : List Char} {p : Pattern} (h : Denotes caseSensitive n source p)
    (hn : n + 2 ≤ heightLimit) :
    parse? (!caseSensitive) source = some p := by
  obtain ⟨level, rfl, hlow, hreads⟩ := h
  obtain ⟨k, hk, hsteps⟩ := hreads [] []
  have hend := hsteps 1 []
  rw [List.append_nil, Nat.add_comm] at hend
  exact parse?_of_steps hk hend (hlow.whole.trans hn)

end BlockHue.Pattern.Read
