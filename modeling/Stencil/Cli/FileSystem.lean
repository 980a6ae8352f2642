/-
A file system with a working directory. A path is followed segment by segment: each is looked up in
the directory that the ones before lead to, so two dots after a name need that directory to exist.

Making a directory and writing a file either succeed or say why not. Writing a file makes the
directories on the way first, and these stay even when the file cannot be written.
-/
import Stencil.Cli.FileTree
import Stencil.Cli.Path
import Stencil.Text.Word

namespace Stencil.Cli

/-- Why a file cannot be read or written. -/
inductive FileFault where
  | missing
  | alreadyExists
  | notDirectory
  | isDirectory
  | nameTooLong
  /-- The path holds the character zero. -/
  | zeroInPath
  /-- The bytes are not valid UTF-8. -/
  | notText
  deriving DecidableEq, Repr

def FileFault.message : FileFault → String
  | missing => "No such file or directory (os error 2)"
  | alreadyExists => "File exists (os error 17)"
  | notDirectory => "Not a directory (os error 20)"
  | isDirectory => "Is a directory (os error 21)"
  | nameTooLong => "File name too long (os error 36)"
  | zeroInPath => "file name contained an unexpected NUL byte"
  | notText => "stream did not contain valid UTF-8"

structure FileSystem where
  root : FileTree
  /-- The place of the working directory. -/
  here : List String

namespace FileSystem

/-- The bytes that a name may have. -/
def maxNameBytes : Nat := 255

/-- The bytes that a path has to stay below. -/
def maxPathBytes : Nat := 4096

/-- A segment that stays where it is. -/
def isIdle (s : List Char) : Bool := s.isEmpty || s == ['.']

/-- Where one segment leads from a place. -/
def step (fs : FileSystem) (place : List String) (s : List Char) :
    Except FileFault (List String) :=
  match fs.root.get? place with
  | none => .error .missing
  | some (.file _) => .error .notDirectory
  | some (.dir entries) =>
    if isIdle s then .ok place
    else if s == ['.', '.'] then .ok place.dropLast
    else if maxNameBytes < Text.byteLength s then .error .nameTooLong
    else if (entries.lookup (String.ofList s)).isSome then .ok (place ++ [String.ofList s])
    else .error .missing

/-- Paths that no file can have. -/
def checkPath (ss : List (List Char)) : Except FileFault Unit :=
  if ss.any (·.contains '\x00') then .error .zeroInPath
  else if maxPathBytes ≤ Text.byteLength ss.flatten + (ss.length - 1) then .error .nameTooLong
  else .ok ()

/-- Where the segments of a path start: only an absolute path has an empty first one. -/
def start (fs : FileSystem) (ss : List (List Char)) : List String :=
  if ss.head? == some [] then [] else fs.here

/-- Where segments lead from a place. -/
def walk (fs : FileSystem) (place : List String) (ss : List (List Char)) :
    Except FileFault (List String) :=
  ss.foldlM fs.step place

/-- The place that the segments of a path lead to. -/
def locate (fs : FileSystem) (ss : List (List Char)) : Except FileFault (List String) := do
  checkPath ss
  fs.walk (fs.start ss) ss

/-- The place that a path leads to. -/
def resolve (fs : FileSystem) (path : String) : Except FileFault (List String) :=
  if path.isEmpty then .error .missing else fs.locate (Path.segments path.toList)

/-- What a path leads to. -/
def lookup? (fs : FileSystem) (path : String) : Option FileTree :=
  (fs.resolve path).toOption.bind fs.root.get?

/-- The path leads to a file. -/
def isFile (fs : FileSystem) (path : String) : Bool := (fs.lookup? path).any (!·.isDir)

/-- The text of a file. -/
def text (fs : FileSystem) (path : String) : Except FileFault String := do
  match fs.root.get? (← fs.resolve path) with
  | none => .error .missing
  | some (.dir _) => .error .isDirectory
  | some (.file content) =>
    match String.fromUTF8? content with
    | some s => .ok s
    | none => .error .notText

def text? (fs : FileSystem) (path : String) : Option String := (fs.text path).toOption

/-- Puts something at a place. -/
def put (fs : FileSystem) (place : List String) (t : FileTree) : FileSystem :=
  { fs with root := fs.root.put place t }

/-- The segments lead to a directory. -/
def isDirAt (fs : FileSystem) (ss : List (List Char)) : Bool :=
  ((fs.locate ss).toOption.bind fs.root.get?).any (·.isDir)

/-- Makes a directory in one that exists. -/
def makeDir (fs : FileSystem) (ss : List (List Char)) : Except FileFault FileSystem := do
  checkPath ss
  let place ← fs.walk (fs.start ss) ss.dropLast
  let last := ss.getLast?.getD []
  match fs.step place last with
  | .ok _ => .error .alreadyExists
  | .error .missing => .ok (fs.put (place ++ [String.ofList last]) .empty)
  | .error e => .error e

/-- Makes a directory and those on the way to it, from the segments of its path in reverse. Gives
the files afterwards and what went wrong. -/
def makeDirs (fs : FileSystem) : List (List Char) → FileSystem × Option FileFault
  | [] => (fs, none)
  | s :: outer =>
    if isIdle s && !outer.isEmpty then makeDirs fs outer
    else
      let path := (s :: outer).reverse
      let make := fun (fs : FileSystem) =>
        match fs.makeDir path with
        | .ok fs => (fs, none)
        | .error e => (fs, if fs.isDirAt path then none else some e)
      match make fs with
      | (fs, some .missing) =>
        match makeDirs fs outer with
        | (fs, none) => make fs
        | failed => failed
      | done => done

/-- Writes a file in a directory that exists. A path that ends in a slash or in dots can only be a
directory. -/
def createFile (fs : FileSystem) (ss : List (List Char)) (content : ByteArray) :
    Except FileFault FileSystem := do
  checkPath ss
  let body := (ss.reverse.dropWhile (·.isEmpty)).reverse
  let place ← fs.walk (fs.start ss) body.dropLast
  let _ ← fs.step place ['.']
  let last := body.getLast?.getD []
  let isName := !isIdle last && last != ['.', '.']
  if !isName || ss.getLast? == some [] then .error .isDirectory
  else
    match fs.step place last with
    | .ok found =>
      match fs.root.get? found with
      | some (.dir _) => .error .isDirectory
      | _ => .ok (fs.put found (.file content))
    | .error .missing => .ok (fs.put (place ++ [String.ofList last]) (.file content))
    | .error e => .error e

/-- The segments, in reverse, without idle ones at the end of the path. -/
def dropIdle : List (List Char) → List (List Char)
  | s :: t :: outer => if isIdle s then dropIdle (t :: outer) else s :: t :: outer
  | ss => ss

/-- Writes a file, with the directories on the way to it. Gives the files afterwards and what went
wrong. -/
def write (fs : FileSystem) (path : String) (content : ByteArray) :
    FileSystem × Option FileFault :=
  if path.isEmpty then (fs, some .missing)
  else
    let ss := Path.segments path.toList
    match fs.makeDirs (dropIdle ss.reverse).tail with
    | (fs, none) =>
      match fs.createFile ss content with
      | .ok fs => (fs, none)
      | .error e => (fs, some e)
    | failed => failed

/-- Every file below the working directory, with its path from there. -/
def files (fs : FileSystem) : List (String × ByteArray) :=
  ((fs.root.get? fs.here).getD .empty).files

end FileSystem

end Stencil.Cli
