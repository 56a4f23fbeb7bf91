import BlockHue.BuiltIn
import BlockHue.Depth
import BlockHue.FileName
import BlockHue.Profile.Decode
import BlockHue.Scan

/-!
# Registry of languages

The registry holds the compiled languages by name and knows which language each extension stands
for. A profile that does not compile takes the language of its name away; the extensions that were
given to that language stay.
-/
namespace BlockHue

namespace Assoc

variable {α : Type}

def erase (key : String) (l : List (String × α)) : List (String × α) := l.filter (·.1 != key)

def put (key : String) (value : α) (l : List (String × α)) : List (String × α) :=
  (key, value) :: erase key l

end Assoc

structure Registry where
  entries : List (String × Language) := []
  /-- Extensions with the names of their languages. -/
  extensions : List (String × String) := []

namespace Registry

/-- Compiles and adds a profile in place of any other of its name. -/
def register [Dialect] (r : Registry) (id : String) (p : Profile) : Except Error Unit × Registry :=
  match Language.compile id p with
  | .error e => (.error e, { r with entries := Assoc.erase id r.entries })
  | .ok l =>
    (.ok (), ⟨Assoc.put id l r.entries,
      p.extensions.foldl (fun exts ext => Assoc.put (FileName.extensionKey ext.toList) id exts)
        r.extensions⟩)

/-- Registers profiles one after the other and counts those that compile. -/
def registerAll [Dialect] (r : Registry) : List (String × Profile) → Nat × Registry
  | [] => (0, r)
  | (id, p) :: ps =>
    match r.register id p with
    | (.ok _, r) => let (n, r) := r.registerAll ps; (n + 1, r)
    | (.error _, r) => r.registerAll ps

/-- Registers the profiles of a document. A malformed document changes nothing. -/
def loadDocument [Dialect] (r : Registry) (document : List Char) : Except Error Nat × Registry :=
  match Profile.readAll document with
  | .error e => (.error e, r)
  | .ok ps => let (n, r) := r.registerAll ps; (.ok n, r)

/-- Registers the profiles of a file, given what reading it came to. -/
def loadFile [Dialect] (r : Registry) (contents : Except FileError (List Char)) :
    Except Error Nat × Registry :=
  match contents with
  | .error e => (.error (.file e), r)
  | .ok document => r.loadDocument document

def builtIn [Dialect] : Registry := (registerAll {} BuiltIn.profiles).2

def get (r : Registry) (id : String) : Except Error Language :=
  match r.entries.lookup id with
  | some l => .ok l
  | none => .error (.unknownLanguage id)

def contains (r : Registry) (id : String) : Bool := (r.entries.lookup id).isSome

/-- The language that a path's extension stands for. -/
def detect? (r : Registry) (path : List Char) : Option String :=
  (FileName.key? path).bind fun ext => r.extensions.lookup ext

def languages (r : Registry) : List String :=
  (r.entries.map (·.1)).mergeSort fun a b => decide (a ≤ b)

/-- The assignments of a text in a language. -/
def assign (r : Registry) (text : List Char) (language : String) (slots : Nat) :
    Except Error (List Assignment) :=
  (r.get language).bind fun l => classify (l.scan text) slots

end Registry

end BlockHue
