/-
Trees of files. A place in a tree is the list of names on the way to it from the root.
-/
namespace Stencil.Cli

inductive FileTree where
  | file (content : ByteArray)
  | dir (entries : List (String × FileTree))
  deriving Inhabited

namespace FileTree

def empty : FileTree := .dir []

def isDir : FileTree → Bool
  | dir _ => true
  | file _ => false

/-- What is at a place. -/
def get? : FileTree → List String → Option FileTree
  | t, [] => some t
  | dir entries, name :: names =>
    match entries.lookup name with
    | some t => get? t names
    | none => none
  | file _, _ :: _ => none

/-- The bytes of the file at a place. -/
def bytes? (t : FileTree) (names : List String) : Option ByteArray :=
  match t.get? names with
  | some (file content) => some content
  | _ => none

/-- Replaces the entry under a name, or adds one. -/
def assign (name : String) (t : FileTree) : List (String × FileTree) → List (String × FileTree)
  | [] => [(name, t)]
  | (n, u) :: rest => if n == name then (n, t) :: rest else (n, u) :: assign name t rest

/-- Puts something at a place, if there are directories all the way to it. -/
def put : FileTree → List String → FileTree → FileTree
  | _, [], new => new
  | dir entries, name :: names, new =>
    match entries.lookup name, names with
    | some t, _ => dir (assign name (put t names new) entries)
    | none, [] => dir (assign name new entries)
    | none, _ :: _ => dir entries
  | file content, _ :: _, _ => file content

/-- A tree that holds another at a place, and nothing else. -/
def nest (t : FileTree) : List String → FileTree
  | [] => t
  | name :: names => dir [(name, nest t names)]

mutual

/-- Every file with its path, below a directory of this path. -/
def filesAt (path : String) : FileTree → List (String × ByteArray)
  | file content => [(path, content)]
  | dir entries => filesIn path entries

def filesIn (path : String) : List (String × FileTree) → List (String × ByteArray)
  | [] => []
  | (name, t) :: rest =>
    filesAt (if path.isEmpty then name else path ++ "/" ++ name) t ++ filesIn path rest

end

/-- Every file with its path. -/
def files (t : FileTree) : List (String × ByteArray) := filesAt "" t

end FileTree

end Stencil.Cli
