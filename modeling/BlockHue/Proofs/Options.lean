import Mathlib
import BlockHue.Options

/-! Arguments item by item. An item is a flag with the argument behind it, a switch, or the name
of a file. Main statement: just the rows of items can be read, of each field the last item holds,
and what is read later is laid over what was read before, so that only the order of items of the
same field counts. -/
namespace BlockHue
namespace Options

/-- The options laid over earlier ones. -/
def overlay (later earlier : Options) : Options where
  file := later.file.or earlier.file
  language := later.language.or earlier.language
  profiles := later.profiles.or earlier.profiles
  colors := later.colors.or earlier.colors
  ranges := later.ranges || earlier.ranges
  list := later.list || earlier.list

@[simp] lemma overlay_default (o : Options) : o.overlay {} = o := by simp [overlay]

lemma overlay_assoc (a b c : Options) : (a.overlay b).overlay c = a.overlay (b.overlay c) := by
  simp only [overlay, Option.or_assoc, Bool.or_assoc]

inductive Field
  | file
  | language
  | profiles
  | colors
  | ranges
  | list
  deriving DecidableEq, Repr

/-- An item of a command line; most have a long and a short form. What stands behind a flag is its
value, even if it looks like a flag. -/
inductive Item
  | language (long : Bool) (value : String)
  | profiles (long : Bool) (value : String)
  | colors (long : Bool) (value : String)
  | ranges (long : Bool)
  | list
  | file (name : String) (plain : name.toList.head? ≠ some '-')

namespace Item

def args : Item → List String
  | language long value => [if long then "--lang" else "-l", value]
  | profiles long value => [if long then "--profiles" else "-p", value]
  | colors long value => [if long then "--colors" else "-c", value]
  | ranges long => [if long then "--ranges" else "-r"]
  | list => ["--list"]
  | file name _ => [name]

def field : Item → Field
  | language .. => .language
  | profiles .. => .profiles
  | colors .. => .colors
  | ranges _ => .ranges
  | list => .list
  | file .. => .file

/-- The value of an item; a switch has none. -/
def value : Item → String
  | language _ value | profiles _ value | colors _ value => value
  | file name _ => name
  | ranges _ | list => ""

end Item

/-- The arguments of some items. -/
def written (items : List Item) : List String := items.flatMap Item.args

def last? (field : Field) (items : List Item) : Option Item :=
  (items.filter (·.field = field)).getLast?

/-- The options that a row of items asks for: of each field the last item holds. -/
def ofItems (items : List Item) : Options where
  file := (last? .file items).map Item.value
  language := (last? .language items).map Item.value
  profiles := (last? .profiles items).map Item.value
  colors := (last? .colors items).map Item.value
  ranges := (last? .ranges items).isSome
  list := (last? .list items).isSome

lemma last?_append (field : Field) (a b : List Item) :
    last? field (a ++ b) = (last? field b).or (last? field a) := by
  rw [last?, List.filter_append, List.getLast?_append, last?, last?]

lemma ofItems_append (a b : List Item) : ofItems (a ++ b) = (ofItems b).overlay (ofItems a) := by
  simp only [ofItems, overlay, last?_append, Option.map_or, Option.isSome_or]

/-- Items that set different fields may change places. -/
lemma ofItems_eq_of_filter_eq {a b : List Item}
    (h : ∀ field, a.filter (·.field = field) = b.filter (·.field = field)) :
    ofItems a = ofItems b := by
  simp only [ofItems, last?, h]

/-- Reading one item. -/
lemma parseFrom_args_append (o : Options) (item : Item) (rest : List String) :
    parseFrom o (item.args ++ rest) = parseFrom ((ofItems [item]).overlay o) rest := by
  cases item with
  | language long value => cases long <;> rfl
  | profiles long value => cases long <;> rfl
  | colors long value => cases long <;> rfl
  | ranges long => cases long <;> rfl
  | list => rfl
  | file name plain =>
    have hfile : classify name = .file := by
      unfold classify
      split <;> simp_all
    simp only [Item.args, List.singleton_append, parseFrom, hfile]
    rfl

/-- Reading a row of items. -/
lemma parseFrom_written_append (o : Options) (items : List Item) (rest : List String) :
    parseFrom o (written items ++ rest) = parseFrom ((ofItems items).overlay o) rest := by
  induction items generalizing o with
  | nil => rfl
  | cons item items ih =>
    rw [written, List.flatMap_cons, List.append_assoc, parseFrom_args_append, ← written, ih,
      ← overlay_assoc, ← ofItems_append, List.singleton_append]

lemma parse_written (items : List Item) : parse (written items) = .ok (ofItems items) := by
  have h := parseFrom_written_append {} items []
  rwa [List.append_nil, overlay_default] at h

/-- What an argument can be: a flag in front of its value, an item of its own, or neither. -/
lemma classify_cases (arg : String) :
    (∃ set, classify arg = .value set ∧ ∃ item : String → Item, ∀ v, (item v).args = [arg, v]) ∨
      (∃ item : Item, item.args = [arg]) ∨ classify arg = .unknown := by
  unfold classify
  split
  · exact .inl ⟨_, rfl, .language true, fun _ => rfl⟩
  · exact .inl ⟨_, rfl, .language false, fun _ => rfl⟩
  · exact .inl ⟨_, rfl, .profiles true, fun _ => rfl⟩
  · exact .inl ⟨_, rfl, .profiles false, fun _ => rfl⟩
  · exact .inl ⟨_, rfl, .colors true, fun _ => rfl⟩
  · exact .inl ⟨_, rfl, .colors false, fun _ => rfl⟩
  · exact .inr (.inl ⟨.ranges true, rfl⟩)
  · exact .inr (.inl ⟨.ranges false, rfl⟩)
  · exact .inr (.inl ⟨.list, rfl⟩)
  · split
    · exact .inr (.inr rfl)
    next hplain => exact .inr (.inl ⟨.file arg (by simpa using hplain), rfl⟩)

/-- Arguments that do not start with an item are refused, whatever was read before. -/
lemma front_cases (args : List String) :
    args = [] ∨ (∃ (item : Item) (rest : List String), args = item.args ++ rest) ∨
      ∃ e, ∀ o, parseFrom o args = .error e := by
  cases args with
  | nil => exact .inl rfl
  | cons arg args =>
    right
    obtain ⟨set, hset, item, hitem⟩ | ⟨item, hitem⟩ | hunknown := classify_cases arg
    · cases args with
      | nil =>
        refine .inr ⟨.missingValue arg, fun o => ?_⟩
        unfold parseFrom
        simp only [hset]
      | cons v rest => exact .inl ⟨item v, rest, by rw [hitem]; rfl⟩
    · exact .inl ⟨item, args, by rw [hitem]; rfl⟩
    · exact .inr ⟨.unknownOption arg, fun o => by simp only [parseFrom, hunknown]⟩

lemma Item.args_ne_nil (item : Item) : item.args ≠ [] := by
  cases item <;> exact List.cons_ne_nil _ _

/-- All arguments are a row of items up to the place where they are refused, if there is one. An
item takes one or two arguments, so the induction is on their number. -/
lemma exists_items (args : List String) :
    ∃ items rest, args = written items ++ rest ∧
      (rest = [] ∨ ∃ e, ∀ o, parseFrom o rest = .error e) := by
  induction hlength : args.length using Nat.strong_induction_on generalizing args with
  | _ n ih =>
    obtain rfl | ⟨item, args, rfl⟩ | hrefused := front_cases args
    · exact ⟨[], [], rfl, .inl rfl⟩
    · have hshort : args.length < n := by
        have := List.length_pos_iff.mpr item.args_ne_nil
        rw [← hlength, List.length_append]
        omega
      obtain ⟨items, rest, rfl, hrest⟩ := ih args.length hshort args rfl
      exact ⟨item :: items, rest, by simp [written], hrest⟩
    · exact ⟨[], args, rfl, .inr hrefused⟩

/-- Later arguments do not depend on what was read before. -/
lemma parseFrom_eq_map (o : Options) (args : List String) :
    parseFrom o args = (parse args).map (·.overlay o) := by
  obtain ⟨items, rest, rfl, rfl | ⟨e, he⟩⟩ := exists_items args
  · rw [parseFrom_written_append, List.append_nil, parse_written]
    rfl
  · rw [parseFrom_written_append, parse, parseFrom_written_append, he, he]
    rfl

lemma exists_parse_iff (args : List String) :
    (∃ o, parse args = .ok o) ↔ ∃ items, args = written items := by
  constructor
  · rintro ⟨o, ho⟩
    obtain ⟨items, rest, rfl, rfl | ⟨e, he⟩⟩ := exists_items args
    · exact ⟨items, by simp⟩
    · rw [parse, parseFrom_written_append, he] at ho
      contradiction
  · rintro ⟨items, rfl⟩
    exact ⟨_, parse_written items⟩

lemma parse_append {a : List String} {o : Options} (h : parse a = .ok o) (b : List String) :
    parse (a ++ b) = (parse b).map (·.overlay o) := by
  obtain ⟨items, rfl⟩ := (exists_parse_iff a).mp ⟨o, h⟩
  rw [parse_written] at h
  obtain rfl := Except.ok.inj h
  rw [parse, parseFrom_written_append, overlay_default, parseFrom_eq_map]

/-- Just the rows of items can be read, and of each field the last item holds. Behind arguments that
can be read, others are refused as they are alone, or what they set is laid over what was set
before; so only the order of items of the same field counts. -/
theorem parse_reads_items (a b : List String) :
    ((∃ o, parse a = .ok o) ↔ ∃ items, a = written items) ∧
      (∀ items, parse (written items) = .ok (ofItems items)) ∧
      (∀ o, parse a = .ok o → parse (a ++ b) = (parse b).map (·.overlay o)) ∧
      ∀ items items', (∀ field, items.filter (·.field = field) = items'.filter (·.field = field)) →
        parse (written items ++ b) = parse (written items' ++ b) := by
  refine ⟨exists_parse_iff a, parse_written, fun o ho =>
    parse_append ho b, fun items items' h => ?_⟩
  rw [parse, parse, parseFrom_written_append, parseFrom_written_append, ofItems_eq_of_filter_eq h]

/-- A flag takes a switch as its value, the later of two languages holds, and a switch may stand in
front of the languages or between them. -/
theorem parse_reads_flag_as_value :
    parse ["-l", "--list", "app.rb"] = .ok { file := some "app.rb", language := some "--list" } ∧
      parse (["-l", "--list", "app.rb"] ++ ["--lang", "lua", "-r"]) =
        .ok { file := some "app.rb", language := some "lua", ranges := true } ∧
      (∀ field, [Item.ranges true, .language false "--list", .language true "lua"].filter
        (·.field = field) =
        [Item.language false "--list", .ranges true, .language true "lua"].filter
          (·.field = field)) ∧
      parse (["--ranges", "-l", "--list", "--lang", "lua"] ++ ["--lang", "lua", "-r"]) =
        parse (["-l", "--list", "--ranges", "--lang", "lua"] ++ ["--lang", "lua", "-r"]) := by
  obtain ⟨-, -, happend, horder⟩ :=
    parse_reads_items ["-l", "--list", "app.rb"] ["--lang", "lua", "-r"]
  have hfront : parse ["-l", "--list", "app.rb"] =
      .ok { file := some "app.rb", language := some "--list" } := rfl
  have hfields (field : Field) :
      [Item.ranges true, .language false "--list", .language true "lua"].filter (·.field = field) =
        [Item.language false "--list", .ranges true, .language true "lua"].filter
          (·.field = field) := by
    cases field <;> rfl
  exact ⟨hfront, happend _ hfront, hfields, horder _ _ hfields⟩

end Options
end BlockHue
