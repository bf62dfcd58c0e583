import SiteServer.Text.Cut

/-!
# Paths

A path is a text whose segments are separated by slashes.  Empty segments and
single dots say nothing, except that a leading slash makes the path absolute and
a leading dot is kept as a component of its own.

A request may only name what lies below the root of the site: `resolve?` refuses
every path with a segment of two dots, and `join` appends the rest to the root.
Nothing is looked up and nothing is simplified on the way.
-/

namespace SiteServer.Files.Path

/-- What a path is made of. -/
inductive Component where
  /-- A leading slash. -/
  | root
  /-- A leading single dot. -/
  | here
  /-- Two dots. -/
  | up
  /-- An ordinary name. -/
  | name (segment : List Char)
deriving DecidableEq, Repr

/-- Whether a path starts at the root. -/
def isAbsolute (path : List Char) : Bool :=
  path.head? = some '/'

/-- The texts between the slashes. -/
def segments (path : List Char) : List (List Char) :=
  Text.pieces (· = '/') path

/-- The component that a segment stands for, wherever it is. -/
def Component.ofSegment? (segment : List Char) : Option Component :=
  if segment = [] ∨ segment = ['.'] then none
  else if segment = ['.', '.'] then some up
  else some (name segment)

/-- What a path has before its segments count. -/
def lead (path : List Char) : List Component :=
  if isAbsolute path then [.root]
  else if (segments path).head? = some ['.'] then [.here]
  else []

/-- The components of a path, in order. -/
def components (path : List Char) : List Component :=
  lead path ++ (segments path).filterMap Component.ofSegment?

/-- The path that a second path denotes when it is taken from the first: the
second alone if it is absolute, else both with a slash between them where one is
needed. -/
def join (base rest : List Char) : List Char :=
  if isAbsolute rest then rest
  else if base = [] ∨ base.getLast? = some '/' then base ++ rest
  else base ++ '/' :: rest

/-- The last component, if it is an ordinary name. -/
def fileName? (path : List Char) : Option (List Char) :=
  match (components path).getLast? with
  | some (.name segment) => some segment
  | _ => none

/-- What follows the last dot of a name, if anything stands before that dot. -/
def extensionOfName? (name : List Char) : Option (List Char) :=
  match Text.cutAtFirst '.' name.reverse with
  | some (after, before) => if before = [] then none else some after.reverse
  | none => none

/-- The extension of the last component. -/
def extension? (path : List Char) : Option (List Char) :=
  (fileName? path).bind extensionOfName?

/-- Whether a component stays below the directory that it is taken from. -/
def Component.staysBelow : Component → Bool
  | .here => true
  | .name _ => true
  | .root => false
  | .up => false

/-- The path of a file of the site, for the path of a request: its leading
slashes are dropped, and the rest is appended to the root unless one of its
components could leave it. -/
def resolve? (root : String) (requested : String) : Option String :=
  let relative := requested.toList.dropWhile (· = '/')
  if (components relative).all Component.staysBelow then
    some (String.ofList (join root.toList relative))
  else none

end SiteServer.Files.Path
