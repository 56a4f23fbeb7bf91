import Mathlib
import BlockHue.Settings
import BlockHue.Proofs.Text

/-! Settings line by line. The last line of a key holds, whether its value makes sense or not. Main
statement: a list of colours that is no palette leaves the path of the profiles alone, and it
leaves the palette alone just if a later line sets the colours, or if no palette but the standard
one was set before. -/
namespace BlockHue
namespace Settings

/-- Whether a line sets a key. -/
def sets (key : String) (line : List Char) : Bool := (parseLine line).any (key == ·.1)

lemma sets_iff {key : String} {line : List Char} :
    sets key line = true ↔ ∃ value, parseLine line = some (key, value) := by
  cases hparse : parseLine line with
  | none => simp [sets, hparse]
  | some setting =>
    obtain ⟨other, value⟩ := setting
    simpa [sets, hparse] using eq_comm

lemma parse_unlines {lines : List (List Char)} (h : ∀ line ∈ lines, '\n' ∉ line) :
    parse (Text.unlines lines) = lines.filterMap parseLine := by
  cases lines with
  | nil => rfl
  | cons line lines =>
    rw [parse, Text.splitOn_eq, Text.unlines,
      List.splitOn_intercalate '\n' h (List.cons_ne_nil line lines)]

/-- Of settings in a row the later ones hold. -/
lemma lookup_append (a b : List (String × List Char)) (key : String) :
    lookup (a ++ b) key = (lookup b key).or (lookup a key) := by
  rw [lookup, List.reverse_append, List.lookup_append, lookup, lookup]

lemma lookup_eq_none_iff {lines : List (List Char)} {key : String} :
    lookup (lines.filterMap parseLine) key = none ↔ ∀ line ∈ lines, sets key line = false := by
  simp only [lookup, List.lookup_eq_none_iff, List.mem_reverse, List.mem_filterMap,
    forall_exists_index, and_imp, sets]
  constructor
  · intro h line hline
    cases hparse : parseLine line with
    | none => rfl
    | some setting => simpa using h setting line hline hparse
  · intro h setting line hline hparse
    simpa [hparse] using h line hline

/-- A key has the value of the last line that sets it. -/
lemma lookup_eq_some_iff {lines : List (List Char)} {key : String} {value : List Char} :
    lookup (lines.filterMap parseLine) key = some value ↔
      ∃ before line after, lines = before ++ line :: after ∧ parseLine line = some (key, value) ∧
        ∀ other ∈ after, sets key other = false := by
  constructor
  · intro h
    induction lines using List.reverseRecOn with
    | nil => contradiction
    | append_singleton lines last ih =>
      rw [List.filterMap_append, lookup_append] at h
      by_cases hlast : sets key last = true
      · obtain ⟨value', hparse⟩ := sets_iff.mp hlast
        have hvalue : lookup ([last].filterMap parseLine) key = some value' := by
          simp [lookup, hparse]
        rw [hvalue, Option.some_or] at h
        obtain rfl := Option.some.inj h
        exact ⟨lines, last, [], rfl, hparse, by simp⟩
      · have hnone : lookup ([last].filterMap parseLine) key = none :=
          lookup_eq_none_iff.mpr (by simpa using hlast)
        rw [hnone, Option.none_or] at h
        obtain ⟨before, line, after, rfl, hparse, hafter⟩ := ih h
        refine ⟨before, line, after ++ [last], by simp, hparse, fun other hother => ?_⟩
        rcases List.mem_append.mp hother with hother | hother
        · exact hafter other hother
        · rw [List.mem_singleton.mp hother]
          simpa using hlast
  · rintro ⟨before, line, after, rfl, hparse, hafter⟩
    rw [List.filterMap_append, lookup_append, List.filterMap_cons_some hparse]
    have hline : lookup ([(key, value)] ++ after.filterMap parseLine) key = some value := by
      rw [lookup_append, lookup_eq_none_iff.mpr hafter]
      simp [lookup]
    rw [List.singleton_append] at hline
    rw [hline, Option.some_or]

/-- The last of some lines that sets the colours sets them to a palette. -/
def Gives (lines : List (List Char)) (palette : Palette) : Prop :=
  ∃ before line after value, lines = before ++ line :: after ∧
    parseLine line = some ("colors", value) ∧
    (∀ other ∈ after, sets "colors" other = false) ∧ Palette.ofList value = .ok palette

lemma gives_iff {lines : List (List Char)} {palette : Palette} :
    Gives lines palette ↔ (lookup (lines.filterMap parseLine) "colors").map Palette.ofList =
      some (.ok palette) := by
  rw [Option.map_eq_some_iff]
  constructor
  · rintro ⟨before, line, after, value, hlines, hparse, hafter, hpalette⟩
    exact ⟨value, lookup_eq_some_iff.mpr ⟨before, line, after, hlines, hparse, hafter⟩, hpalette⟩
  · rintro ⟨value, hvalue, hpalette⟩
    obtain ⟨before, line, after, hlines, hparse, hafter⟩ := lookup_eq_some_iff.mp hvalue
    exact ⟨before, line, after, value, hlines, hparse, hafter, hpalette⟩

variable {text line value : List Char} {before after : List (List Char)}

/-- The settings of a text, and of the text without one of its lines. -/
lemma parse_of_splitOn (h : Text.splitOn '\n' text = before ++ line :: after) :
    parse text = before.filterMap parseLine ++ (line :: after).filterMap parseLine ∧
      parse (Text.unlines (before ++ after)) = before.filterMap parseLine ++
        after.filterMap parseLine := by
  constructor
  · rw [parse, h, List.filterMap_append]
  · rw [parse_unlines, List.filterMap_append]
    intro other hother
    have hmem : other ∈ Text.splitOn '\n' text := by
      rw [h]
      rcases List.mem_append.mp hother with hother | hother
      · exact List.mem_append_left _ hother
      · exact List.mem_append_right _ (List.mem_cons_of_mem _ hother)
    exact Text.not_mem_of_mem_splitOn hmem

/-- A malformed list of colours never counts for the path of the profiles. It counts for the palette
just if no later line sets the colours and the lines in front of it give a palette that is not the
standard one: that palette is lost. -/
theorem malformed_colors_ignored_iff (h : Text.splitOn '\n' text = before ++ line :: after)
    (hline : parseLine line = some ("colors", value)) {e : Error}
    (hvalue : Palette.ofList value = .error e) :
    (ofFile (.ok text)).profiles = (ofFile (.ok (Text.unlines (before ++ after)))).profiles ∧
      ((ofFile (.ok text)).palette = (ofFile (.ok (Text.unlines (before ++ after)))).palette ↔
        (∃ other ∈ after, sets "colors" other = true) ∨ ∀ palette, Gives before palette →
          palette = .standard) := by
  obtain ⟨hwith, hwithout⟩ := parse_of_splitOn h
  rw [List.filterMap_cons_some hline] at hwith
  have hkey (key : String) : lookup (parse text) key =
      (lookup (after.filterMap parseLine) key).or
        ((lookup [("colors", value)] key).or (lookup (before.filterMap parseLine) key)) := by
    rw [hwith, lookup_append, ← List.singleton_append, lookup_append, Option.or_assoc]
  have hkey' (key : String) : lookup (parse (Text.unlines (before ++ after))) key =
      (lookup (after.filterMap parseLine) key).or (lookup (before.filterMap parseLine) key) := by
    rw [hwithout, lookup_append]
  have hcolors : lookup [("colors", value)] "colors" = some value := rfl
  have hprofiles : lookup [("colors", value)] "profiles" = none := rfl
  constructor
  · simp only [ofFile, ofText, hkey, hkey', hprofiles, Option.none_or]
  · simp only [ofFile, ofText, hkey, hkey', hcolors, Option.some_or, gives_iff]
    cases hafter : lookup (after.filterMap parseLine) "colors" with
    | some later =>
      have hlater : ∃ other ∈ after, sets "colors" other = true := by
        by_contra hnone
        rw [lookup_eq_none_iff.mpr
          fun other hother => by simpa using fun ht => hnone ⟨other, hother, ht⟩] at hafter
        contradiction
      simp [hlater]
    | none =>
      have hnone : ¬ ∃ other ∈ after, sets "colors" other = true := by
        rintro ⟨other, hother, ht⟩
        rw [lookup_eq_none_iff.mp hafter other hother] at ht
        contradiction
      simp only [Option.none_or, Option.map_some, hvalue, hnone, false_or]
      split
      next palette hpalette =>
        rw [hpalette]
        simp [eq_comm]
      next hother =>
        simp only [true_iff]
        intro palette hpalette
        exact absurd hpalette (hother palette)

lemma ofList_ultraviolet :
    Palette.ofList "ultraviolet".toList = .error (.unknownColor "ultraviolet") := by cbv

/-- A malformed list of colours takes the place of the palette that an earlier line has set. -/
theorem earlier_colors_lost :
    Text.splitOn '\n' "colors = red\ncolors = ultraviolet".toList =
        ["colors = red".toList] ++ "colors = ultraviolet".toList :: [] ∧
      parseLine "colors = ultraviolet".toList = some ("colors", "ultraviolet".toList) ∧
      Palette.ofList "ultraviolet".toList = .error (.unknownColor "ultraviolet") ∧
      (ofFile (.ok "colors = red\ncolors = ultraviolet".toList)).palette.colors =
        [.yellow, .magenta, .cyan] ∧
      (ofFile (.ok (Text.unlines (["colors = red".toList] ++ [])))).palette.colors = [.red] :=
  ⟨by decide +kernel, by decide +kernel, ofList_ultraviolet, by decide +kernel, by decide +kernel⟩

/-- A malformed list of colours between two lines that set the colours, the later one with
its key in capitals. -/
theorem later_colors_hold :
    let before := ["colors = red".toList]
    let after := ["profiles = more.toml\r".toList, " COLORS=blue, cyan".toList]
    Text.splitOn '\n'
      "colors = red\ncolors = ultraviolet\nprofiles = more.toml\r\n COLORS=blue, cyan".toList =
        before ++ "colors = ultraviolet".toList :: after ∧
      parseLine "colors = ultraviolet".toList = some ("colors", "ultraviolet".toList) ∧
      Palette.ofList "ultraviolet".toList = .error (.unknownColor "ultraviolet") ∧
      (ofFile (.ok (Text.unlines (before ++ after)))).profiles = some "more.toml".toList ∧
      (ofFile (.ok
        "colors = red\ncolors = ultraviolet\nprofiles = more.toml\r\n COLORS=blue, cyan".toList)).profiles =
        (ofFile (.ok (Text.unlines (before ++ after)))).profiles ∧
      (ofFile (.ok
        "colors = red\ncolors = ultraviolet\nprofiles = more.toml\r\n COLORS=blue, cyan".toList)).palette =
        (ofFile (.ok (Text.unlines (before ++ after)))).palette := by
  intro before after
  have htext :
      Text.splitOn '\n'
        "colors = red\ncolors = ultraviolet\nprofiles = more.toml\r\n COLORS=blue, cyan".toList =
      before ++ "colors = ultraviolet".toList :: after := by decide +kernel
  have hline : parseLine "colors = ultraviolet".toList = some ("colors", "ultraviolet".toList) := by
    decide +kernel
  obtain ⟨hprofiles, hpalette⟩ := malformed_colors_ignored_iff htext hline ofList_ultraviolet
  have hlater : ∃ other ∈ after, sets "colors" other = true := by decide +kernel
  exact ⟨htext, hline, ofList_ultraviolet, by decide +kernel, hprofiles, hpalette.mpr (.inl hlater)⟩

end Settings
end BlockHue
