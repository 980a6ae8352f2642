/-
Paths. A path is kept as it was written; its parts decide how it sorts and which paths are the
same, so that repeated slashes and dots in the middle do not matter.
-/
namespace Stencil.Cli

/-- A part of a path. -/
inductive Part where
  /-- The slash that an absolute path starts with. -/
  | root
  /-- The dot that a relative path starts with. -/
  | here
  /-- Two dots. -/
  | up
  | name (s : String)
  deriving DecidableEq, Repr

namespace Part

def rank : Part → Nat
  | root => 0
  | here => 1
  | up => 2
  | name _ => 3

/-- Names come last and sort by their characters. -/
def order : Part → Part → Ordering
  | name a, name b => compare a b
  | a, b => compare a.rank b.rank

end Part

namespace Path

/-- What stands between the slashes of a path. -/
def segments : List Char → List (List Char)
  | [] => [[]]
  | c :: cs =>
    if c == '/' then [] :: segments cs
    else
      match segments cs with
      | [] => [[c]]
      | s :: ss => (c :: s) :: ss

/-- A segment as a part. A dot, and nothing at all, say nothing. -/
def partOf? (segment : List Char) : Option Part :=
  if segment.isEmpty || segment == ['.'] then none
  else if segment == ['.', '.'] then some .up
  else some (.name (String.ofList segment))

/-- The parts of a path. A dot is one only in front. -/
def parts (path : String) : List Part :=
  let ss := segments path.toList
  let first :=
    if path.toList.head? == some '/' then [.root]
    else if ss.head? == some ['.'] then [.here]
    else []
  first ++ ss.filterMap partOf?

/-- Part by part, a shorter path before a longer one. -/
def orderParts : List Part → List Part → Ordering
  | [], [] => .eq
  | [], _ :: _ => .lt
  | _ :: _, [] => .gt
  | a :: as, b :: bs => (a.order b).then (orderParts as bs)

def order (a b : String) : Ordering := orderParts (parts a) (parts b)

/-- The name of a file in a directory. -/
def join (dir name : String) : String :=
  if dir.toList.getLast? == some '/' then dir ++ name else dir ++ "/" ++ name

/-- The name that a path ends with. -/
def fileName? (path : String) : Option String :=
  match (parts path).getLast? with
  | some (.name s) => some s
  | _ => none

/-- What follows the last dot of a name. A dot in front of the name does not count. -/
def nameExtension? (name : String) : Option String :=
  let cs := name.toList
  if cs.tail.contains '.' then some (String.ofList (cs.reverse.takeWhile (· != '.')).reverse)
  else none

def templateExtensions : List String := ["sprig", "pixy"]

/-- A path whose file name has the extension of templates. -/
def isTemplate (path : String) : Bool :=
  ((fileName? path).bind nameExtension?).any templateExtensions.contains

/-- Of equal paths next to each other only the first. -/
def dropRepeats : List String → List String
  | [] => []
  | p :: ps =>
    match dropRepeats ps with
    | [] => [p]
    | q :: qs => if order p q == .eq then p :: qs else p :: q :: qs

/-- Each path once, in order; of equal paths the one given first. -/
def sortedOnce (paths : List String) : List String :=
  dropRepeats (paths.mergeSort fun a b => (order a b).isLE)

end Path

end Stencil.Cli
