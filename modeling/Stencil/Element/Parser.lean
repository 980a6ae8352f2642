/-
Reading an element line. After the tag name come `#id` and `.class` names in any number, then an
attribute list in parentheses, then the content: nothing, a text after a space, or an expression
after `=` (escaped) or `!=` (as it is).
-/
import Stencil.Element
import Stencil.Fault
import Stencil.Nesting

namespace Stencil

open Text

namespace Nesting

theorem length_after_of_findFrom (delimiters : List Char) :
    ∀ {s : Nesting} {cs : List Char} {k : Cut},
      s.findFrom delimiters cs = some k → k.after.length < cs.length
  | _, [], _, h => by simp [findFrom] at h
  | s, c :: cs, k, h => by
    simp only [findFrom] at h
    split at h
    · cases h
      simp
    · obtain ⟨k', hk, rfl⟩ := Option.map_eq_some_iff.mp h
      have := length_after_of_findFrom delimiters hk
      simp only [List.length_cons]
      omega

end Nesting

namespace Element

def isMarker (c : Char) : Bool := c == '#' || c == '.'

/-- The keyword characters that a text starts with, the marked names after them, and what follows
those. -/
def markedNames : List Char → List Char × List (Char × List Char) × List Char
  | [] => ([], [], [])
  | c :: cs =>
    if isKeywordChar c then
      let (run, names, rest) := markedNames cs
      (c :: run, names, rest)
    else if isMarker c then
      let (run, names, rest) := markedNames cs
      ([], (c, run) :: names, rest)
    else ([], [], c :: cs)

/-- The `#id` and `.class` names that a text starts with, and what follows them. -/
def shorthands (cs : List Char) : List (Char × List Char) × List Char :=
  if cs.head?.any isMarker then (markedNames cs).2 else ([], cs)

/-- An empty name says nothing, and the last id counts. -/
def addShorthand (e : Element) (shorthand : Char × List Char) : Element :=
  if shorthand.2.isEmpty then e
  else if shorthand.1 == '#' then { e with id := some (.literal (String.ofList shorthand.2)) }
  else { e with classes := e.classes ++ [String.ofList shorthand.2] }

/-- The characters that a string's content stands for. -/
def unescape : List Char → List Char
  | [] => []
  | ['\\'] => ['\\']
  | '\\' :: 'n' :: cs => '\n' :: unescape cs
  | '\\' :: 't' :: cs => '\t' :: unescape cs
  | '\\' :: c :: cs => c :: unescape cs
  | c :: cs => c :: unescape cs

/-- The text of a double-quoted string, fit to stand between apostrophes. -/
def literalText (cs : List Char) : List Char :=
  (unescape cs.tail.dropLast).flatMap fun c =>
    if c == '\'' then ['&', '#', '3', '9', ';'] else [c]

/-- The value of an attribute from the text after its sign. -/
def parseValue (name : String) (escape : Bool) (raw : List Char) :
    Except Fault AttributeValue :=
  match raw with
  | [] => .error (.noAttributeValue name)
  | '\'' :: _ => .error (.singleQuotes (String.ofList raw))
  | _ =>
    if Nesting.isStringLiteral raw then .ok (.literal (String.ofList (literalText raw)))
    else .ok (.expression (String.ofList raw) escape)

/-- The text up to the next top-level comma, and what follows the comma. -/
def cutValue (cs : List Char) : List Char × List Char :=
  match Nesting.findDelimiter? (trimStart cs) [','] with
  | some k => (trim k.before, trimStart k.after)
  | none => (trim cs, [])

theorem length_cutValue_le (cs : List Char) : (cutValue cs).2.length ≤ cs.length := by
  simp only [cutValue]
  split
  · rename_i k hk
    have h1 := Nesting.length_after_of_findFrom [','] hk
    have h2 := length_trimStart_le k.after
    have h3 := length_trimStart_le cs
    simp only
    omega
  · simp

/-- The attributes of a list in order. `whole` is the list as it stands in messages; `rest` is
what is left of it, without blanks in front. -/
def parseEntries (whole : String) (rest : List Char) :
    Except Fault (List (String × AttributeValue)) :=
  let name := String.ofList (rest.takeWhile isAttributeChar)
  if rest.isEmpty then .ok []
  else if name.isEmpty then .error (.badTag whole .noAttributeName)
  else
    match _h : trimStart (rest.dropWhile isAttributeChar) with
    | [] => .ok [(name, .boolean)]
    | ',' :: more => do
      let entries ← parseEntries whole (trimStart more)
      .ok ((name, .boolean) :: entries)
    | '!' :: '=' :: more => do
      let value ← parseValue name false (cutValue more).1
      let entries ← parseEntries whole (cutValue more).2
      .ok ((name, value) :: entries)
    | '=' :: more => do
      let value ← parseValue name true (cutValue more).1
      let entries ← parseEntries whole (cutValue more).2
      .ok ((name, value) :: entries)
    | _ => .error (.badTag whole .noEqualsSign)
termination_by rest.length
decreasing_by
  all_goals
    have h1 := length_dropWhile_le isAttributeChar rest
    have h2 := length_trimStart_le (rest.dropWhile isAttributeChar)
    have h3 := length_trimStart_le more
    have h4 := length_cutValue_le more
    rw [_h] at h2
    simp only [List.length_cons] at h2
    omega

/-- The element with the attributes of a list. -/
def parseAttributes (e : Element) (list : List Char) : Except Fault Element := do
  let entries ← parseEntries (String.ofList list) (trimStart list)
  .ok (entries.foldl (fun e (name, value) => e.setAttribute name value) e)

/-- The element with the attribute list that a text may start with, and what follows the list. -/
def parseAttributeList (e : Element) (cs : List Char) : Except Fault (Element × List Char) :=
  match cs with
  | '(' :: _ =>
    match Nesting.closeGroup? cs with
    | none => .error (.openAttributeList e.tag)
    | some group => do
      let e ← e.parseAttributes group.before
      .ok (e, group.after)
  | _ => .ok (e, cs)

/-- The content that ends an element line. `whole` is the line as it stands in messages. -/
def parseContent (tag whole : String) (escape : Bool) (cs : List Char) : Except Fault Content :=
  match cs with
  | [] => .ok .empty
  | '=' :: expr =>
    if allBlank expr then .error (.noContent tag)
    else .ok (.expression (String.ofList (trim expr)) escape)
  | [' '] => .ok .empty
  | ' ' :: text => .ok (.text (String.ofList text))
  | _ => .error (.badTag whole .strayCharacter)

/-- The element of a tag name and what follows it in its line. -/
def parse (tag rest : String) : Except Fault Element :=
  let whole := tag ++ rest
  if tag.isEmpty then .error (.badTag whole .noTagName)
  else do
    let (names, cs) := shorthands rest.toList
    let (e, cs) ← parseAttributeList (names.foldl addShorthand { tag }) cs
    let content ←
      match cs with
      | '!' :: cs => parseContent tag whole false cs
      | cs => parseContent tag whole true cs
    .ok { e with content }

end Element

end Stencil
