import BlockHue.Pattern.Standard
import BlockHue.Proofs.Toml

/-! A registry as a log. Every call that changes a registry comes to a row of attempts to register a
profile, and what the registry answers can be told from the log of all attempts. Main statements:
the last attempt for a name decides what stands under it, the last attempt that compiled and lists
an extension decides what the extension stands for, and these two can part ways, so that a language
is detected which is not there. -/
namespace BlockHue
namespace Registry

/-- An attempt to register a profile under a name. -/
abbrev Attempt := String × Profile

namespace Attempt

def compiles [Dialect] (a : Attempt) : Bool := (Language.compile? a.1 a.2).isSome

/-- The profile lists an extension, given in lowercase; dots in front and case do not count. -/
def lists (ext : List Char) (a : Attempt) : Bool :=
  a.2.extensions.any fun e => Text.lower (e.toList.dropWhile (· == '.')) == ext

end Attempt

/-- A call that can change a registry. -/
inductive Change
  | register (id : String) (p : Profile)
  | document (text : List Char)
  /-- A file, by what reading it came to. -/
  | file (contents : Except FileError (List Char))

namespace Change

def apply [Dialect] (r : Registry) : Change → Registry
  | register id p => (r.register id p).2
  | document text => (r.loadDocument text).2
  | file contents => (r.loadFile contents).2

/-- The profiles that a document holds; none if it is malformed. -/
def attemptsOf (document : List Char) : List Attempt :=
  match Profile.readAll document with
  | .ok ps => ps
  | .error _ => []

/-- What a call attempts to register, in order. -/
def attempts : Change → List Attempt
  | register id p => [(id, p)]
  | document text => attemptsOf text
  | file (.ok text) => attemptsOf text
  | file (.error _) => []

end Change

/-- A registry that calls lead to, and the log of their attempts. -/
inductive Reached [Dialect] : Registry → List Attempt → Prop
  | empty : Reached {} []
  | builtIn : Reached .builtIn BuiltIn.profiles
  | change {r : Registry} {log : List Attempt} (c : Change) (h : Reached r log) :
      Reached (c.apply r) (log ++ c.attempts)

/-- The last attempt of a log that meets a condition. -/
def latest? (log : List Attempt) (cond : Attempt → Bool) : Option Attempt := log.reverse.find? cond

lemma latest?_append_singleton (log : List Attempt) (a : Attempt) (cond : Attempt → Bool) :
    latest? (log ++ [a]) cond = if cond a then some a else latest? log cond := by
  simp only [latest?, List.reverse_append, List.reverse_singleton, List.singleton_append,
    List.find?_cons]
  cases cond a <;> rfl

lemma latest?_eq_some_iff {log : List Attempt} {a : Attempt} {cond : Attempt → Bool} :
    latest? log cond = some a ↔
      cond a = true ∧ ∃ before after, log = before ++ a :: after ∧ ∀ b ∈ after, cond b = false := by
  rw [latest?, List.find?_eq_some_iff_append]
  refine and_congr_right fun _ => ?_
  constructor
  · rintro ⟨after, before, hlog, hafter⟩
    refine ⟨before.reverse, after.reverse, ?_,
      fun b hb => by simpa using hafter b (List.mem_reverse.mp hb)⟩
    simpa using congrArg List.reverse hlog
  · rintro ⟨before, after, rfl, hafter⟩
    exact ⟨after.reverse, before.reverse, by simp,
      fun b hb => by simp [hafter b (List.mem_reverse.mp hb)]⟩

lemma latest?_append_cons_of_pos {before after : List Attempt} {a : Attempt} {cond : Attempt → Bool}
    (h : cond a = true) :
    latest? (before ++ a :: after) cond = (latest? after cond).or (some a) := by
  simp [latest?, List.find?_append, h]

/-- A registry that holds what a log of attempts has left. -/
structure Follows [Dialect] (r : Registry) (log : List Attempt) : Prop where
  nodup : (r.entries.map Prod.fst).Nodup
  entries : ∀ id, r.entries.lookup id = (latest? log (·.1 == id)).bind fun a =>
    Language.compile? a.1 a.2
  extensions : ∀ ext, r.extensions.lookup (String.ofList ext) =
    (latest? log fun a => a.compiles && a.lists ext).map Prod.fst

lemma follows_empty [Dialect] : Follows {} [] := ⟨List.nodup_nil, fun _ => rfl, fun _ => rfl⟩

/-- Of several extensions that are given to a language, each stands for it. -/
lemma lookup_foldl_put (id : String) (given : List String) (exts : List (String × String))
    (ext : List Char) :
    (given.foldl (fun exts e => Assoc.put (FileName.extensionKey e.toList) id exts) exts).lookup
      (String.ofList ext) =
      if given.any fun e => Text.lower (e.toList.dropWhile (· == '.')) == ext then some id
      else exts.lookup (String.ofList ext) := by
  induction given generalizing exts with
  | nil => rfl
  | cons e given ih =>
    have hkey : String.ofList ext = FileName.extensionKey e.toList ↔
        (Text.lower (e.toList.dropWhile (· == '.')) == ext) = true := by
      rw [FileName.extensionKey, String.ofList_inj, beq_iff_eq, eq_comm]
    rw [List.foldl_cons, ih, Assoc.lookup_put, List.any_cons]
    by_cases hhead : (Text.lower (e.toList.dropWhile (· == '.')) == ext) = true
    · simp [hkey.mpr hhead, hhead]
    · simp [mt hkey.mp hhead, hhead]

/-- One attempt: the entries change for its name whether or not it compiles, the
extensions only if it does. -/
lemma Follows.register [Dialect] {r : Registry} {log : List Attempt} (h : r.Follows log)
    (id : String) (p : Profile) :
    (r.register id p).2.Follows (log ++ [(id, p)]) where
  nodup := by
    unfold Registry.register
    split
    · exact Assoc.nodup_erase h.nodup id
    · exact Assoc.nodup_put h.nodup id _
  entries other := by
    rw [lookup_register, latest?_append_singleton, h.entries]
    by_cases hid : other = id
    · simp [hid]
    · have hne : (id == other) = false := by simpa using Ne.symm hid
      simp [hid, hne]
  extensions ext := by
    rw [latest?_append_singleton]
    unfold Registry.register
    rw [Language.compile_eq]
    cases hl : Language.compile? id p with
    | none =>
      have hcompiles : Attempt.compiles (id, p) = false := by simp [Attempt.compiles, hl]
      simpa [hcompiles] using h.extensions ext
    | some l =>
      have hcompiles : Attempt.compiles (id, p) = true := by simp [Attempt.compiles, hl]
      simp only [Option.elim_some, lookup_foldl_put, h.extensions ext, hcompiles, Bool.true_and]
      cases hlists : Attempt.lists ext (id, p) <;> simp only [Attempt.lists] at hlists <;>
        simp [hlists]

lemma Follows.registerAll [Dialect] {r : Registry} {log : List Attempt} (h : r.Follows log)
    (ps : List Attempt) :
    (r.registerAll ps).2.Follows (log ++ ps) := by
  induction ps generalizing r log with
  | nil =>
    rw [List.append_nil]
    exact h
  | cons a ps ih =>
    rw [registerAll_cons]
    simpa using ih (h.register a.1 a.2)

/-- Registering a row of profiles counts those that compile. -/
lemma registerAll_fst [Dialect] (r : Registry) (ps : List Attempt) :
    (r.registerAll ps).1 = ps.countP Attempt.compiles := by
  induction ps generalizing r with
  | nil => rfl
  | cons a ps ih =>
    have hcompile := Language.compile_eq a.1 a.2
    rw [Registry.registerAll, List.countP_cons]
    unfold Registry.register
    cases hl : Language.compile? a.1 a.2 with
    | none =>
      rw [hl, Option.elim_none] at hcompile
      simp [hcompile, ih, Attempt.compiles, hl]
    | some l =>
      rw [hl, Option.elim_some] at hcompile
      simp [hcompile, ih, Attempt.compiles, hl]

lemma loadDocument_ok [Dialect] (r : Registry) {document : List Char} {ps : List Attempt}
    (h : Profile.readAll document = .ok ps) :
    r.loadDocument document = (.ok (ps.countP Attempt.compiles), (r.registerAll ps).2) := by
  simp [loadDocument, h, registerAll_fst]

lemma loadDocument_error [Dialect] (r : Registry) {document : List Char} {e : Error}
    (h : Profile.readAll document = .error e) :
    r.loadDocument document = (.error e, r) := by
  simp [loadDocument, h]

lemma Follows.loadDocument [Dialect] {r : Registry} {log : List Attempt} (h : r.Follows log)
    (document : List Char) :
    (r.loadDocument document).2.Follows (log ++ Change.attemptsOf document) := by
  cases hps : Profile.readAll document with
  | error e => simpa [loadDocument_error r hps, Change.attemptsOf, hps] using h
  | ok ps => simpa [loadDocument_ok r hps, Change.attemptsOf, hps] using h.registerAll ps

lemma Follows.apply [Dialect] {r : Registry} {log : List Attempt} (h : r.Follows log) (c : Change) :
    (c.apply r).Follows (log ++ c.attempts) := by
  cases c with
  | register id p => exact h.register id p
  | document text => exact h.loadDocument text
  | file contents =>
    cases contents with
    | error e => simpa [Change.apply, Change.attempts, loadFile] using h
    | ok text => exact h.loadDocument text

lemma Reached.follows [Dialect] {r : Registry} {log : List Attempt} (h : Reached r log) :
    r.Follows log := by
  induction h with
  | empty => exact follows_empty
  | builtIn => exact follows_empty.registerAll BuiltIn.profiles
  | change c _ ih => exact ih.apply c

lemma contains_iff_get (r : Registry) (id : String) :
    r.contains id = true ↔ ∃ l, r.get id = .ok l := by
  unfold contains get
  cases r.entries.lookup id <;> simp

lemma mem_languages_iff (r : Registry) (id : String) : id ∈ r.languages ↔ r.contains id = true := by
  rw [languages, List.mem_mergeSort, Assoc.mem_keys_iff]
  rfl

/-- A text is refused for its language exactly if the language is missing. -/
lemma assign_eq_unknown_iff (r : Registry) (text : List Char) (id : String) (slots : Nat) :
    r.assign text id slots = .error (.unknownLanguage id) ↔ r.contains id = false := by
  unfold assign contains get
  cases r.entries.lookup id with
  | none => simp [Except.bind]
  | some l =>
    simp only [Except.bind, classify]
    split <;> simp

namespace Follows

variable [Dialect] {r : Registry} {log : List Attempt}

lemma get_iff (h : r.Follows log) (id : String) (l : Language) :
    r.get id = .ok l ↔ ∃ p, latest? log (·.1 == id) = some (id, p) ∧
      Language.compile id p = .ok l := by
  have hget : r.get id = .ok l ↔ r.entries.lookup id = some l := by
    unfold get
    cases r.entries.lookup id <;> simp
  rw [hget, h.entries, Option.bind_eq_some_iff]
  constructor
  · rintro ⟨⟨other, p⟩, hlatest, hl⟩
    obtain rfl : other = id := by simpa using (latest?_eq_some_iff.mp hlatest).1
    exact ⟨p, hlatest, Language.compile_eq_ok_iff.mpr hl⟩
  · rintro ⟨p, hlatest, hl⟩
    exact ⟨(id, p), hlatest, Language.compile_eq_ok_iff.mp hl⟩

lemma contains_eq (h : r.Follows log) (id : String) :
    r.contains id = (latest? log (·.1 == id)).any Attempt.compiles := by
  rw [contains, h.entries]
  cases latest? log (·.1 == id) <;> rfl

lemma detect_iff (h : r.Follows log) (path : List Char) (id : String) :
    r.detect? path = some id ↔ ∃ ext, FileName.extension? path = some ext ∧
      ∃ p, latest? log (fun a => a.compiles && a.lists (Text.lower ext)) = some (id, p) := by
  unfold detect? FileName.key?
  cases FileName.extension? path with
  | none => simp
  | some ext => simp [h.extensions]

lemma languages_ordered (h : r.Follows log) :
    r.languages.Pairwise fun a b => Text.bytes a.toList < Text.bytes b.toList := by
  have hnodup : ((r.entries.map Prod.fst).map id).Nodup := by simpa using h.nodup
  exact Text.pairwise_bytes_mergeSort id hnodup

end Follows

/-- What a registry answers, told from the log of all attempts. -/
structure Answers [Dialect] (r : Registry) (log : List Attempt) : Prop where
  /-- Under a name stands what its last attempt was compiled to, if it was. -/
  get_iff : ∀ id l, r.get id = .ok l ↔ ∃ p, latest? log (·.1 == id) = some (id, p) ∧
    Language.compile id p = .ok l
  contains_iff : ∀ id, r.contains id = true ↔ ∃ l, r.get id = .ok l
  mem_languages_iff : ∀ id, id ∈ r.languages ↔ r.contains id = true
  languages_ordered : r.languages.Pairwise fun a b => Text.bytes a.toList < Text.bytes b.toList
  /-- An extension stands for the name of the last attempt that compiled and lists it. -/
  detect_iff : ∀ path id, r.detect? path = some id ↔ ∃ ext, FileName.extension? path = some ext ∧
    ∃ p, latest? log (fun a => a.compiles && a.lists (Text.lower ext)) = some (id, p)
  /-- A document registers its profiles in the order of their names and counts those
  that compile. -/
  load_document : ∀ document ps, Profile.readAll document = .ok ps →
    ps.Pairwise (fun a b => Text.bytes a.1.toList < Text.bytes b.1.toList) ∧
      (r.loadDocument document).1 = .ok (ps.countP Attempt.compiles)
  malformed_document : ∀ document e, Profile.readAll document = .error e → r.loadDocument document =
    (.error e, r)
  load_file : ∀ document, r.loadFile (.ok document) = r.loadDocument document
  unread_file : ∀ cause, r.loadFile (.error cause) = (.error (.file cause), r)

/-- All that a registry answers can be told from its log, whatever calls have led to it. -/
theorem answers_from_log [Dialect] {r : Registry} {log : List Attempt} (h : Reached r log) :
    r.Answers log where
  get_iff := h.follows.get_iff
  contains_iff := r.contains_iff_get
  mem_languages_iff := r.mem_languages_iff
  languages_ordered := h.follows.languages_ordered
  detect_iff := h.follows.detect_iff
  load_document document ps hps := ⟨Profile.readAll_pairwise hps, by rw [loadDocument_ok r hps]⟩
  malformed_document document e he := loadDocument_error r he
  load_file document := rfl
  unread_file cause := rfl

/-- Behind an attempt that compiled, the last attempt for the same name fails exactly if a malformed
profile comes last. -/
lemma last_fails_iff [Dialect] {before after : List Attempt} {id : String} {p : Profile}
    (h : Attempt.compiles (id, p) = true) :
    (latest? (before ++ (id, p) :: after) (·.1 == id)).any Attempt.compiles = false ↔
      ∃ q between later, after = between ++ (id, q) :: later ∧ Attempt.compiles (id, q) = false ∧
        ∀ a ∈ later, a.1 ≠ id := by
  rw [latest?_append_cons_of_pos (by simp)]
  constructor
  · intro hfails
    cases hafter : latest? after (·.1 == id) with
    | none => simp [hafter, h] at hfails
    | some a =>
      obtain ⟨hid, between, later, hsplit, hlater⟩ := latest?_eq_some_iff.mp hafter
      obtain ⟨other, q⟩ := a
      obtain rfl : other = id := by simpa using hid
      rw [hafter, Option.some_or, Option.any_some] at hfails
      exact ⟨q, between, later, hsplit, hfails, fun a ha => by simpa using hlater a ha⟩
  · rintro ⟨q, between, later, rfl, hfails, hlater⟩
    have hlast : latest? (between ++ (id, q) :: later) (·.1 == id) = some (id, q) :=
      latest?_eq_some_iff.mpr ⟨by simp, between, later, rfl, fun a ha => by simpa using hlater a ha⟩
    rw [hlast, Option.some_or, Option.any_some, hfails]

/-- The language that a path's extension stands for is missing exactly if, behind the last attempt
that gave it the extension, a malformed profile was the last attempt for its name. A text in that
language is then refused, and only then. -/
theorem detected_missing_iff [Dialect] {r : Registry} {log : List Attempt} (h : Reached r log)
    {path : List Char} {id : String} (hdetect : r.detect? path = some id) :
    (∀ text slots, r.assign text id slots = .error (.unknownLanguage id) ↔ r.contains id = false) ∧
      ∃ ext p before after, FileName.extension? path = some ext ∧ log = before ++ (id, p) :: after ∧
        Attempt.compiles (id, p) = true ∧ Attempt.lists (Text.lower ext) (id, p) = true ∧
        (∀ a ∈ after, (Attempt.compiles a && Attempt.lists (Text.lower ext) a) = false) ∧
        (r.contains id = false ↔ ∃ q between later, after = between ++ (id, q) :: later ∧
          Attempt.compiles (id, q) = false ∧ ∀ a ∈ later, a.1 ≠ id) := by
  refine ⟨fun text slots => r.assign_eq_unknown_iff text id slots, ?_⟩
  obtain ⟨ext, hext, p, hlatest⟩ := (h.follows.detect_iff path id).mp hdetect
  obtain ⟨hgood, before, after, rfl, hafter⟩ := latest?_eq_some_iff.mp hlatest
  rw [Bool.and_eq_true] at hgood
  refine ⟨ext, p, before, after, hext, rfl, hgood.1, hgood.2, hafter, ?_⟩
  rw [h.follows.contains_eq]
  exact last_fails_iff hgood.1

open scoped Dialect.Standard

/-- A document with a malformed profile for a built-in language. -/
def brokenRuby : List Char := "[ruby]\nopen_tokens = [\"(\"]\n".toList

/-- The built-in languages after that document. -/
def overridden : Registry := Change.apply .builtIn (.document brokenRuby)

lemma readAll_brokenRuby :
    Profile.readAll brokenRuby = .ok [("ruby", { openKeywords := ["("] })] := by
  have hread : (Toml.read? brokenRuby).bind Decode.profiles? =
      some [("ruby", { openKeywords := ["("] })] := by
    decide +kernel
  simp [Profile.readAll, hread]

lemma reached_overridden :
    Reached overridden (BuiltIn.profiles ++ [("ruby", { openKeywords := ["("] })]) := by
  have hattempts : Change.attempts (.document brokenRuby) =
      [("ruby", { openKeywords := ["("] })] := by
    rw [Change.attempts, Change.attemptsOf, readAll_brokenRuby]
  exact hattempts ▸ Reached.change (.document brokenRuby) .builtIn

lemma compile?_brokenRuby : Language.compile? "ruby" { openKeywords := ["("] } = none := by
  decide +kernel

lemma detect?_overridden : overridden.detect? "app.RB".toList = some "ruby" := by
  rw [reached_overridden.follows.detect_iff]
  exact ⟨"RB".toList, by decide +kernel, BuiltIn.ruby, by decide +kernel⟩

lemma contains_overridden : overridden.contains "ruby" = false := by
  have hlatest :
      latest? (BuiltIn.profiles ++ [("ruby", { openKeywords := ["("] })]) (·.1 == "ruby") =
      some ("ruby", { openKeywords := ["("] }) := by
    rw [latest?_append_singleton]
    rfl
  rw [reached_overridden.follows.contains_eq, hlatest, Option.any_some, Attempt.compiles,
    compile?_brokenRuby]
  rfl

/-- A malformed profile in place of a good one takes the language away, and the other languages
stay. -/
theorem answers_from_log_overridden :
    Reached overridden (BuiltIn.profiles ++ [("ruby", { openKeywords := ["("] })]) ∧
      (∀ l, overridden.get "ruby" ≠ .ok l) ∧ "ruby" ∉ overridden.languages ∧
        (∃ l, overridden.get "lua" = .ok l) ∧
      (overridden.loadDocument brokenRuby).1 = .ok 0 := by
  have h := answers_from_log reached_overridden
  have hruby := contains_overridden
  refine ⟨reached_overridden, ?_, ?_, ?_, ?_⟩
  · intro l hl
    rw [(h.contains_iff "ruby").mpr ⟨l, hl⟩] at hruby
    contradiction
  · rw [h.mem_languages_iff, hruby]
    exact Bool.false_ne_true
  · rw [← h.contains_iff, reached_overridden.follows.contains_eq]
    decide +kernel
  · rw [(h.load_document _ _ readAll_brokenRuby).2]
    simp [Attempt.compiles, compile?_brokenRuby]

/-- With a malformed profile for a language its files are still detected as such,
and then refused. -/
theorem overridden_detected_missing :
    Reached overridden (BuiltIn.profiles ++ [("ruby", { openKeywords := ["("] })]) ∧
      overridden.detect? "app.RB".toList = some "ruby" ∧ overridden.contains "ruby" = false ∧
      overridden.assign "if x\nend".toList "ruby" 3 = .error (.unknownLanguage "ruby") :=
  ⟨reached_overridden, detect?_overridden, contains_overridden,
    (overridden.assign_eq_unknown_iff _ _ _).mpr contains_overridden⟩

/-- The malformed profile of that language stands behind the one that gave it the extension. -/
theorem detected_missing_overridden :
    overridden.detect? "app.RB".toList = some "ruby" ∧
      ∃ ext p before after, FileName.extension? "app.RB".toList = some ext ∧
        BuiltIn.profiles ++ [("ruby", { openKeywords := ["("] })] = before ++ ("ruby", p) :: after ∧
        ∃ q between later, after = between ++ ("ruby", q) :: later ∧
          Attempt.compiles ("ruby", q) = false ∧
          ∀ a ∈ later, a.1 ≠ "ruby" := by
  obtain ⟨-, ext, p, before, after, hext, hlog, -, -, -, hmissing⟩ :=
    detected_missing_iff reached_overridden detect?_overridden
  exact ⟨detect?_overridden, ext, p, before, after, hext, hlog, hmissing.mp contains_overridden⟩

end Registry
end BlockHue
