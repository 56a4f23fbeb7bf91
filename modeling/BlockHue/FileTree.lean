import BlockHue.Error
import BlockHue.FileName

/-!
# File trees

A snapshot of a directory: its files by their paths. The directories are those that the paths pass
through. Paths are followed part by part; a part behind a file, or a slash behind it, asks for a
directory where there is none.
-/
namespace BlockHue

/-- Files with the parts of their paths and what they hold; `none` stands for bytes
that are no text. -/
structure FileTree where
  files : List (List (List Char) × Option (List Char)) := []

namespace FileTree

def add (t : FileTree) (path : List Char) (contents : Option (List Char)) : FileTree :=
  ⟨(FileName.parts path, contents) :: t.files⟩

def isDirectory (t : FileTree) (dir : List (List Char)) : Bool :=
  dir.isEmpty || t.files.any fun (path, _) => dir.isPrefixOf path && dir.length < path.length

/-- Follows `parts` outside of the snapshot, where there are directories to climb to
and nothing else. -/
def outside (parts : List (List Char)) : FileError :=
  if parts.all fun part => part.isEmpty || part == ['.'] || part == ['.', '.'] then .isDirectory
  else .notFound

/-- Follows `parts` from the directory `dir`, whose parts are given last first. -/
def follow (t : FileTree) : (dir parts : List (List Char)) → Except FileError (List Char)
  | _, [] => .error .isDirectory
  | dir, part :: parts =>
    if part.isEmpty || part == ['.'] then follow t dir parts
    else if part == ['.', '.'] then
      match dir with
      | [] => .error (outside parts)
      | _ :: outer => follow t outer parts
    else
      let here := (part :: dir).reverse
      match t.files.lookup here with
      | some contents =>
        if !parts.isEmpty then .error .notDirectory
        else match contents with
          | some text => .ok text
          | none => .error .notText
      | none => if t.isDirectory here then follow t (part :: dir) parts else .error .notFound

/-- The text of a file. Paths lead from the directory of the snapshot, or from outside of
it behind a slash. -/
def read (t : FileTree) (path : List Char) : Except FileError (List Char) :=
  if path.isEmpty then .error .notFound
  else if path.head? == some '/' then .error (outside (Text.splitOn '/' path))
  else t.follow [] (Text.splitOn '/' path)

end FileTree

end BlockHue
