/-
Walking a directory. Hidden entries are left out, and so are those that an ignore file in a
directory around them names. Ignore files for version control count only inside a repository. A
lone dash stands for the standard input, below which there is nothing.
-/
import Stencil.Cli.FileSystem
import Stencil.Text.Blank

namespace Stencil.Cli

/-- A line of an ignore file. -/
structure IgnoreRule where
  name : String
  /-- It speaks of directories only. -/
  dirOnly : Bool
  deriving DecidableEq, Repr

namespace IgnoreRule

def covers (r : IgnoreRule) (name : String) (isDir : Bool) : Bool :=
  r.name == name && (isDir || !r.dirOnly)

/-- A name, or a name with a slash at its end for a directory. Comments and blank lines say
nothing. -/
def ofLine? (line : List Char) : Option IgnoreRule :=
  let cs := Text.trimEnd line
  match cs, cs.getLast? with
  | '#' :: _, _ => none
  | _, none => none
  | _, some '/' => some ⟨String.ofList cs.dropLast, true⟩
  | _, some _ => some ⟨String.ofList cs, false⟩

/-- The lines of a file, without their line feeds. -/
def byteLines : List UInt8 → List (List UInt8)
  | [] => [[]]
  | b :: bs =>
    if b == 10 then [] :: byteLines bs
    else
      match byteLines bs with
      | [] => [[b]]
      | l :: ls => (b :: l) :: ls

/-- The lines up to the first that is not valid UTF-8. -/
def textLines : List (List UInt8) → List (List Char)
  | [] => []
  | l :: ls =>
    match String.fromUTF8? ⟨l.toArray⟩ with
    | some s => s.toList :: textLines ls
    | none => []

/-- Lines without a mark of byte order in front of the first. -/
def dropMark : List (List Char) → List (List Char)
  | [] => []
  | l :: ls => l.dropWhile (· == '\ufeff') :: ls

/-- The rules of a file in a directory, none when there is no such file. -/
def ofFile (dir : FileTree) (place : List String) : List IgnoreRule :=
  match dir.bytes? place with
  | some content => (dropMark (textLines (byteLines content.data.toList))).filterMap ofLine?
  | none => []

end IgnoreRule

/-- The rules that hold in a directory. -/
structure IgnoreScope where
  always : List IgnoreRule := []
  /-- Rules of version control, inside a repository. -/
  repository : Option (List IgnoreRule) := none

namespace IgnoreScope

/-- The entries that make a directory a repository. -/
def repositoryMarks : List String := [".git", ".jj"]

/-- The scope inside a directory. A repository starts afresh. -/
def enter (s : IgnoreScope) (dir : FileTree) : IgnoreScope where
  always := s.always ++ IgnoreRule.ofFile dir [".ignore"]
  repository :=
    if repositoryMarks.any fun mark => (dir.get? [mark]).isSome then
      some (IgnoreRule.ofFile dir [".gitignore"]
        ++ IgnoreRule.ofFile dir [".git", "info", "exclude"])
    else s.repository.map (· ++ IgnoreRule.ofFile dir [".gitignore"])

/-- An entry that a walk leaves out. -/
def skips (s : IgnoreScope) (name : String) (isDir : Bool) : Bool :=
  name.toList.head? == some '.'
    || (s.always ++ s.repository.getD []).any fun r => r.covers name isDir

/-- The scope around a place: that of all directories on the way to it. -/
def around (s : IgnoreScope) : FileTree → List String → IgnoreScope
  | .dir entries, name :: names =>
    match entries.lookup name with
    | some t => around (s.enter (.dir entries)) t names
    | none => s
  | _, _ => s

end IgnoreScope

mutual

/-- The files at a path and below it. -/
def filesAt (scope : IgnoreScope) (path : String) : FileTree → List String
  | .file _ => [path]
  | .dir entries => filesIn (scope.enter (.dir entries)) path entries

/-- The files among some entries of a directory and below them. -/
def filesIn (scope : IgnoreScope) (dir : String) : List (String × FileTree) → List String
  | [] => []
  | (name, t) :: rest =>
    (if scope.skips name t.isDir then [] else filesAt scope (Path.join dir name) t)
      ++ filesIn scope dir rest

end

/-- An argument that stands for the standard input. -/
def isStandardInput (pattern : String) : Bool := Path.parts pattern == [.name "-"]

/-- The files that a walk below a directory comes by. -/
def walkDirectory (fs : FileSystem) (path : String) : List String :=
  if isStandardInput path then []
  else
    match fs.resolve path with
    | .error _ => []
    | .ok place =>
      match fs.root.get? place with
      | some (.dir entries) =>
        filesAt (IgnoreScope.around {} fs.root place) path (.dir entries)
      | _ => []

end Stencil.Cli
