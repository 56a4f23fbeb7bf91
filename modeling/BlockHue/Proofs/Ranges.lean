import Mathlib
import BlockHue.Render
import BlockHue.Proofs.Text

/-! Written ranges and how they are read back: lines end at newlines, ranges stand behind blanks,
positions on both sides of a hyphen, and numbers on both sides of a colon. Main statement: just the
texts that are written can be read, each is the text of one row of buckets only, and a row has no
text only if one more than a number of it is no word and sums are checked. -/
namespace BlockHue
namespace Text

lemma not_mem_toDigits {c : Char} (h : c.isDigit = false) (n : Nat) : c ∉ Nat.toDigits 10 n := by
  intro hmem
  rw [Nat.isDigit_of_mem_toDigits (by omega) le_rfl hmem] at h
  contradiction

/-- The number of a text in digits; zeros in front are refused. -/
def readNumber? (cs : List Char) : Option Nat :=
  let n := Nat.ofDigitChars 10 cs 0
  if Nat.toDigits 10 n = cs then some n else none

lemma readNumber?_eq_some_iff {cs : List Char} {n : Nat} :
    readNumber? cs = some n ↔ cs = Nat.toDigits 10 n := by
  constructor
  · intro h
    simp only [readNumber?, Option.ite_none_right_eq_some, Option.some.injEq] at h
    rw [← h.2, h.1]
  · rintro rfl
    simp [readNumber?]

end Text

namespace Overflow

/-- The number that comes before another one. -/
def previous? (o : Overflow) : Nat → Option Nat
  | 0 => match o with
    | fails => none
    | wraps => some (Word.count - 1)
  | n + 1 => if n + 1 = Word.count then none else some n

lemma next?_eq_none_iff {o : Overflow} {n : Nat} :
    o.next? n = none ↔ o = fails ∧ n + 1 = Word.count := by
  unfold next?
  split
  next h => cases o <;> simp [h]
  next h => simp [h]

/-- No two numbers have the same next one, also where sums wrap round. -/
lemma previous?_eq_some_iff {o : Overflow} {m n : Nat} :
    o.previous? m = some n ↔ o.next? n = some m := by
  have hpos : 0 < Word.count := by decide
  by_cases hn : n + 1 = Word.count <;> cases m <;> cases o <;> simp [previous?, next?, hn] <;> omega

end Overflow

namespace Text

/-- A number that is written one higher. -/
def writePlace? (o : Overflow) (n : Nat) : Option (List Char) := (o.next? n).map (Nat.toDigits 10)

def readPlace? (o : Overflow) (cs : List Char) : Option Nat := (readNumber? cs).bind o.previous?

lemma readPlace?_eq_some_iff {o : Overflow} {cs : List Char} {n : Nat} :
    readPlace? o cs = some n ↔ writePlace? o n = some cs := by
  simp only [readPlace?, writePlace?, Option.bind_eq_some_iff, Option.map_eq_some_iff,
    readNumber?_eq_some_iff, Overflow.previous?_eq_some_iff]
  exact exists_congr fun m => by rw [and_comm, @eq_comm _ cs]

lemma not_mem_writePlace? {c : Char} (h : c.isDigit = false) {o : Overflow} {n : Nat}
    {cs : List Char} (hcs : writePlace? o n = some cs) : c ∉ cs := by
  obtain ⟨m, -, rfl⟩ := Option.map_eq_some_iff.mp hcs
  exact not_mem_toDigits h m

lemma writePlace?_eq_none_iff {o : Overflow} {n : Nat} :
    writePlace? o n = none ↔ o = .fails ∧ n + 1 = Word.count := by
  rw [writePlace?, Option.map_eq_none_iff, Overflow.next?_eq_none_iff]

lemma mapM_eq_none_iff {α β : Type} {f : α → Option β} {xs : List α} :
    xs.mapM f = none ↔ ∃ x ∈ xs, f x = none := by
  induction xs with
  | nil => simp
  | cons x xs ih =>
    cases hx : f x with
    | none => simp [List.mapM_cons, hx]
    | some y => cases hxs : xs.mapM f <;> simpa [List.mapM_cons, hx, hxs] using ih

section Reader

variable {α : Type} {read : List Char → Option α} {write : α → Option (List Char)}

/-- Two things on both sides of a separator. -/
def writePair? (sep : Char) (write : α → Option (List Char)) (x y : α) : Option (List Char) := do
  return (← write x) ++ sep :: (← write y)

def readPair? (sep : Char) (read : List Char → Option α) (cs : List Char) : Option (α × α) :=
  match splitOn sep cs with
  | [a, b] => do return (← read a, ← read b)
  | _ => none

lemma writePair?_eq_some_iff {sep : Char} {x y : α} {cs : List Char} :
    writePair? sep write x y = some cs ↔ ∃ a b, write x = some a ∧ write y = some b ∧
      a ++ sep :: b = cs := by
  simp [writePair?, Option.bind_eq_some_iff]

lemma writePair?_eq_none_iff {sep : Char} {x y : α} :
    writePair? sep write x y = none ↔ write x = none ∨ write y = none := by
  cases hx : write x <;> cases hy : write y <;> simp [writePair?, hx, hy]

lemma readPair?_eq_some_iff (hread : ∀ {cs x}, read cs = some x ↔ write x = some cs) {sep : Char}
    (hsep : ∀ {cs x}, write x = some cs → sep ∉ cs) {cs : List Char} {x y : α} :
    readPair? sep read cs = some (x, y) ↔ writePair? sep write x y = some cs := by
  have hsplit {a b : List Char} (ha : write x = some a) (hb : write y = some b) :
      splitOn sep cs = [a, b] ↔ a ++ sep :: b = cs := by
    rw [splitOn_eq_iff (List.cons_ne_nil _ _) (by simp [hsep ha, hsep hb]), eq_comm]
    simp [List.intercalate]
  rw [writePair?_eq_some_iff, readPair?]
  constructor
  · intro h
    split at h
    next a b hab =>
      obtain ⟨ha, hb⟩ : write x = some a ∧ write y = some b := by
        simpa [Option.bind_eq_some_iff, hread] using h
      exact ⟨a, b, ha, hb, (hsplit ha hb).mp hab⟩
    next => contradiction
  · rintro ⟨a, b, ha, hb, hcs⟩
    rw [(hsplit ha hb).mpr hcs]
    simp [hread.mpr ha, hread.mpr hb]

lemma mapM_read_eq_some_iff (hread : ∀ {cs x}, read cs = some x ↔ write x = some cs)
    {words : List (List Char)} {xs : List α} :
    words.mapM read = some xs ↔ xs.mapM write = some words := by
  induction words generalizing xs with
  | nil => cases xs <;> simp [List.mapM_cons, Option.bind_eq_some_iff]
  | cons word words ih =>
    cases xs with
    | nil => simp [List.mapM_cons, Option.bind_eq_some_iff]
    | cons x xs => simp [List.mapM_cons, Option.bind_eq_some_iff, hread, ih]

/-- What a list is written as can be read word by word. -/
lemma exists_write_of_mem (hread : ∀ {cs x}, read cs = some x ↔ write x = some cs) {xs : List α}
    {words : List (List Char)} (h : xs.mapM write = some words) {word : List Char}
    (hword : word ∈ words) :
    ∃ x, write x = some word := by
  have hall : words.mapM read ≠ none := by
    rw [(mapM_read_eq_some_iff hread).mpr h]
    exact Option.some_ne_none xs
  obtain ⟨x, hx⟩ := Option.ne_none_iff_exists'.mp fun hnone =>
    hall (mapM_eq_none_iff.mpr ⟨word, hword, hnone⟩)
  exact ⟨x, hread.mp hx⟩

end Reader

end Text

namespace Position

variable {o : Overflow}

lemma render?_eq (p : Position) :
    p.render? o = Text.writePair? ':' (Text.writePlace? o) p.line p.column := by
  simp only [render?, Text.writePair?, Text.writePlace?, Option.bind_eq_bind, Option.bind_map]
  rfl

lemma render?_eq_none_iff {p : Position} :
    p.render? o = none ↔ o = .fails ∧ (p.line + 1 = Word.count ∨ p.column + 1 = Word.count) := by
  rw [render?_eq, Text.writePair?_eq_none_iff, Text.writePlace?_eq_none_iff,
    Text.writePlace?_eq_none_iff, and_or_left]

def read? (o : Overflow) (cs : List Char) : Option Position :=
  (Text.readPair? ':' (Text.readPlace? o) cs).map fun (line, column) => ⟨line, column⟩

lemma read?_eq_some_iff {cs : List Char} {p : Position} :
    read? o cs = some p ↔ p.render? o = some cs := by
  obtain ⟨line, column⟩ := p
  rw [render?_eq,
    ← Text.readPair?_eq_some_iff Text.readPlace?_eq_some_iff (Text.not_mem_writePlace? (by decide))]
  simp [read?]

lemma not_mem_render? {c : Char} (hdigit : c.isDigit = false) (hcolon : c ≠ ':') {p : Position}
    {cs : List Char} (hcs : p.render? o = some cs) : c ∉ cs := by
  rw [render?_eq, Text.writePair?_eq_some_iff] at hcs
  obtain ⟨a, b, ha, hb, rfl⟩ := hcs
  simp [Text.not_mem_writePlace? hdigit ha, Text.not_mem_writePlace? hdigit hb, hcolon]

end Position

namespace Range

variable {o : Overflow}

lemma render?_eq (r : Range) :
    r.render? o = Text.writePair? '-' (Position.render? o) r.start r.stop := rfl

def read? (o : Overflow) (cs : List Char) : Option Range :=
  (Text.readPair? '-' (Position.read? o) cs).map fun (start, stop) => ⟨start, stop⟩

lemma read?_eq_some_iff {cs : List Char} {r : Range} :
    read? o cs = some r ↔ r.render? o = some cs := by
  obtain ⟨start, stop⟩ := r
  rw [render?_eq, ← Text.readPair?_eq_some_iff Position.read?_eq_some_iff
    (Position.not_mem_render? (by decide) (by decide))]
  simp [read?]

lemma not_mem_render? {c : Char} (hdigit : c.isDigit = false) (hcolon : c ≠ ':') (hhyphen : c ≠ '-')
    {r : Range} {cs : List Char} (hcs : r.render? o = some cs) : c ∉ cs := by
  rw [render?_eq, Text.writePair?_eq_some_iff] at hcs
  obtain ⟨a, b, ha, hb, rfl⟩ := hcs
  simp [Position.not_mem_render? hdigit hcolon ha, Position.not_mem_render? hdigit hcolon hb,
    hhyphen]

/-- The numbers of a range, all from zero. -/
def numbers (r : Range) : List Nat := [r.start.line, r.start.column, r.stop.line, r.stop.column]

lemma render?_eq_none_iff {r : Range} :
    r.render? o = none ↔ o = .fails ∧ ∃ n ∈ r.numbers, n + 1 = Word.count := by
  rw [render?_eq, Text.writePair?_eq_none_iff, Position.render?_eq_none_iff,
    Position.render?_eq_none_iff, ← and_or_left]
  simp [numbers, or_assoc]

/-- What stands in front of the ranges of a bucket. -/
def header (bucket : Nat) : List Char := Nat.toDigits 10 bucket ++ [':']

lemma not_mem_header {c : Char} (hdigit : c.isDigit = false) (hcolon : c ≠ ':') (bucket : Nat) :
    c ∉ header bucket := by
  simp [header, Text.not_mem_toDigits hdigit, hcolon]

/-- The line of a bucket, without its newline. -/
def line? (o : Overflow) (bucket : Nat) (rs : List Range) : Option (List Char) :=
  (rs.mapM (render? o)).map fun words => [' '].intercalate (header bucket :: words)

lemma intercalate_words (front : List Char) (words : List (List Char)) :
    [' '].intercalate (front :: words) = front ++ words.flatMap (' ' :: ·) := by
  induction words generalizing front with
  | nil => simp [List.intercalate]
  | cons word words ih =>
    rw [List.intercalate_cons_cons, ih, List.flatMap_cons]
    simp

lemma not_mem_words {c : Char} (hdigit : c.isDigit = false) (hcolon : c ≠ ':') (hhyphen : c ≠ '-')
    {rs : List Range} {words : List (List Char)} (h : rs.mapM (render? o) = some words) :
    ∀ word ∈ words, c ∉ word := by
  intro word hword
  obtain ⟨r, hr⟩ := Text.exists_write_of_mem read?_eq_some_iff h hword
  exact not_mem_render? hdigit hcolon hhyphen hr

def readLine? (o : Overflow) (bucket : Nat) (cs : List Char) : Option (List Range) :=
  match Text.splitOn ' ' cs with
  | front :: words => if front = header bucket then words.mapM (read? o) else none
  | [] => none

lemma readLine?_eq_some_iff {bucket : Nat} {cs : List Char} {rs : List Range} :
    readLine? o bucket cs = some rs ↔ line? o bucket rs = some cs := by
  have hsplit {words : List (List Char)} (h : rs.mapM (render? o) = some words) :
      Text.splitOn ' ' cs = header bucket :: words ↔
        [' '].intercalate (header bucket :: words) = cs := by
    have hfree : ∀ part ∈ header bucket :: words, ' ' ∉ part :=
      List.forall_mem_cons.mpr ⟨not_mem_header (by decide) (by decide) bucket,
        not_mem_words (by decide) (by decide) (by decide) h⟩
    rw [Text.splitOn_eq_iff (List.cons_ne_nil _ _) hfree, eq_comm]
  rw [line?, Option.map_eq_some_iff, readLine?]
  constructor
  · intro h
    split at h
    next front words hwords =>
      obtain ⟨rfl, hread⟩ := Option.ite_none_right_eq_some.mp h
      have hrs := (Text.mapM_read_eq_some_iff read?_eq_some_iff).mp hread
      exact ⟨words, hrs, (hsplit hrs).mp hwords⟩
    next => contradiction
  · rintro ⟨words, hrs, hcs⟩
    rw [(hsplit hrs).mpr hcs]
    simp [(Text.mapM_read_eq_some_iff read?_eq_some_iff).mpr hrs]

lemma newline_not_mem_line? {bucket : Nat} {rs : List Range} {cs : List Char}
    (hcs : line? o bucket rs = some cs) :
    '\n' ∉ cs := by
  obtain ⟨words, hrs, rfl⟩ := Option.map_eq_some_iff.mp hcs
  have hwords := not_mem_words (c := '\n') (by decide) (by decide) (by decide) hrs
  simpa [intercalate_words, not_mem_header] using hwords

/-- The lines of the buckets from number `bucket` on; the last newline has an empty
line behind it. -/
def lines? (o : Overflow) : (bucket : Nat) → List (List Range) → Option (List (List Char))
  | _, [] => some [[]]
  | bucket, rs :: rest => do return (← line? o bucket rs) :: (← lines? o (bucket + 1) rest)

lemma lines?_cons_eq_some_iff {bucket : Nat} {rs : List Range} {rest : List (List Range)}
    {css : List (List Char)} :
    lines? o bucket (rs :: rest) = some css ↔
      ∃ cs more, line? o bucket rs = some cs ∧ lines? o (bucket + 1) rest = some more ∧
        cs :: more = css := by
  simp [lines?, Option.bind_eq_some_iff]

/-- There is a line, and no newline in any of them. -/
lemma lines?_spec {bucket : Nat} {buckets : List (List Range)} {css : List (List Char)}
    (h : lines? o bucket buckets = some css) : css ≠ [] ∧ ∀ cs ∈ css, '\n' ∉ cs := by
  induction buckets generalizing bucket css with
  | nil =>
    obtain rfl := Option.some.inj h
    simp
  | cons rs rest ih =>
    obtain ⟨cs, more, hcs, hmore, rfl⟩ := lines?_cons_eq_some_iff.mp h
    exact ⟨List.cons_ne_nil _ _, List.forall_mem_cons.mpr ⟨newline_not_mem_line? hcs, (ih hmore).2⟩⟩

lemma renderFrom?_eq (bucket : Nat) (buckets : List (List Range)) :
    renderFrom? o bucket buckets = (lines? o bucket buckets).map Text.unlines := by
  induction buckets generalizing bucket with
  | nil => rfl
  | cons rs rest ih =>
    rw [renderFrom?, lines?, line?, ih]
    cases hrs : rs.mapM (render? o) with
    | none => rfl
    | some words =>
      cases hrest : lines? o (bucket + 1) rest with
      | none => rfl
      | some more =>
        obtain ⟨first, others, rfl⟩ := List.exists_cons_of_ne_nil (lines?_spec hrest).1
        simp [Text.unlines, List.intercalate_cons_cons, intercalate_words, header]

def readLines? (o : Overflow) : (bucket : Nat) → List (List Char) → Option (List (List Range))
  | _, [] => none
  | _, [[]] => some []
  | bucket, cs :: rest => do return (← readLine? o bucket cs) :: (← readLines? o (bucket + 1) rest)

lemma readLines?_eq_some_iff {bucket : Nat} {css : List (List Char)} {buckets : List (List Range)} :
    readLines? o bucket css = some buckets ↔ lines? o bucket buckets = some css := by
  fun_induction readLines? o bucket css generalizing buckets with
  | case1 bucket => simpa using fun h => (lines?_spec h).1 rfl
  | case2 bucket =>
    cases buckets with
    | nil => simp [lines?]
    | cons rs more =>
      refine iff_of_false (by simp) fun h => ?_
      obtain ⟨cs, rest, -, hrest, heq⟩ := lines?_cons_eq_some_iff.mp h
      exact (lines?_spec hrest).1 (List.cons.inj heq).2
  | case3 bucket cs rest hlast ih =>
    cases buckets with
    | nil => simpa [lines?, Option.bind_eq_some_iff] using hlast
    | cons rs more => simp [lines?, Option.bind_eq_some_iff, readLine?_eq_some_iff, ih]

/-- The buckets of a text. -/
def readAll? (o : Overflow) (text : List Char) : Option (List (List Range)) :=
  readLines? o 0 (Text.splitOn '\n' text)

lemma readAll?_eq_some_iff {text : List Char} {buckets : List (List Range)} :
    readAll? o text = some buckets ↔ renderAll? o buckets = some text := by
  have hsplit {css : List (List Char)} (h : lines? o 0 buckets = some css) :
      Text.splitOn '\n' text = css ↔ Text.unlines css = text := by
    obtain ⟨hne, hfree⟩ := lines?_spec h
    rw [Text.splitOn_eq_iff hne hfree, Text.unlines, eq_comm]
  rw [readAll?, readLines?_eq_some_iff, renderAll?, renderFrom?_eq, Option.map_eq_some_iff]
  constructor
  · intro h
    exact ⟨_, h, (hsplit h).mp rfl⟩
  · rintro ⟨css, hcss, htext⟩
    rw [(hsplit hcss).mpr htext, hcss]

lemma renderFrom?_eq_none_iff {bucket : Nat} {buckets : List (List Range)} :
    renderFrom? o bucket buckets = none ↔ ∃ rs ∈ buckets, ∃ r ∈ rs, r.render? o = none := by
  induction buckets generalizing bucket with
  | nil => simp [renderFrom?]
  | cons rs rest ih =>
    rw [List.exists_mem_cons_iff, ← Text.mapM_eq_none_iff, ← @ih (bucket + 1), renderFrom?]
    cases rs.mapM (render? o) <;> cases renderFrom? o (bucket + 1) rest <;> simp

lemma renderAll?_eq_none_iff {buckets : List (List Range)} :
    renderAll? o buckets = none ↔
      o = .fails ∧ ∃ rs ∈ buckets, ∃ r ∈ rs, ∃ n ∈ r.numbers, n + 1 = Word.count := by
  rw [renderAll?, renderFrom?_eq_none_iff]
  simp only [render?_eq_none_iff]
  cases o <;> simp

/-- Just the written texts can be read, and each gives back the buckets it was written from; so
no two rows of buckets have the same text. Only a row with the largest word has none, where
sums are checked. -/
theorem renderAll_unambiguous (o : Overflow) (buckets buckets' : List (List Range))
    (text : List Char) :
    (readAll? o text = some buckets ↔ renderAll? o buckets = some text) ∧
      (renderAll? o buckets = renderAll? o buckets' ↔
        buckets = buckets' ∨ renderAll? o buckets = none ∧ renderAll? o buckets' = none) ∧
      (renderAll? o buckets = none ↔
        o = .fails ∧ ∃ rs ∈ buckets, ∃ r ∈ rs, ∃ n ∈ r.numbers, n + 1 = Word.count) := by
  refine ⟨readAll?_eq_some_iff, ⟨fun h => ?_, ?_⟩, renderAll?_eq_none_iff⟩
  · cases htext : renderAll? o buckets with
    | none => exact .inr ⟨rfl, h ▸ htext⟩
    | some text =>
      have hread := readAll?_eq_some_iff.mpr htext
      have hread' := readAll?_eq_some_iff.mpr (h.symm.trans htext)
      exact .inl (Option.some.inj (hread.symm.trans hread'))
  · rintro (rfl | ⟨hnone, hnone'⟩)
    · rfl
    · rw [hnone, hnone']

end Range

end BlockHue
