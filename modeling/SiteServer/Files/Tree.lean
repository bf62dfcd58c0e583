import SiteServer.Files.Entry
import SiteServer.Files.Path

/-!
# File trees

A file tree is a file system written down: the places of its files, directories
and symbolic links.  A place is the list of names that lead to it from the root;
the working directory is one such place, and relative paths start there.

Looking a path up follows its components one by one.  A symbolic link is
replaced by the path that it holds, at most `linkLimit` times; a file can only
stand at the end; a path that ends in a slash, or in a dot after one, must lead
to a directory.

A file may also be opened to be written on.  It is created if its directory is
there, also when it is a link that leads to it; but a name with a slash after it
cannot be the name of a file.
-/

namespace SiteServer.Files

/-- The names that lead from the root to a place. -/
abbrev Place := List (List Char)

/-- What stands at a place. -/
inductive Node where
  | file (contents : Bytes)
  | unreadable (why : Fault)
  | directory
  | link (target : List Char)

/-- The nodes of a file system, and the place that relative paths start from. -/
structure Tree where
  nodes : List (Place × Node)
  workingDirectory : Place := []

namespace Tree

/-- How many symbolic links a look-up follows. -/
def linkLimit : Nat := 40

/-- The longest name, in bytes. -/
def nameLimit : Nat := 255

/-- The longest path, in bytes. -/
def pathLimit : Nat := 4095

/-- What stands at a place; the root is always a directory. -/
def node? (t : Tree) (place : Place) : Option Node :=
  if place = [] then some .directory
  else (t.nodes.find? (·.1 = place)).map (·.2)

/-- The tree with a node at a place, and directories on the way to it where
there is nothing yet. -/
def put (t : Tree) (place : Place) (node : Node) : Tree :=
  let missing := (List.range place.length).map (place.take ·) |>.filter fun above =>
    above ≠ [] ∧ (t.node? above).isNone
  { t with
    nodes := (place, node) :: missing.map (·, .directory) ++ t.nodes.filter (·.1 ≠ place) }

/-- The place that segments lead to from a place.  Links are followed, at most
`links` of them, and what is missing counts as a directory that is still to be
made. -/
def placeFrom (t : Tree) (links : Nat) (place : Place) : List (List Char) → Place
  | [] => place
  | segment :: rest =>
    if segment = [] ∨ segment = ['.'] then t.placeFrom links place rest
    else if segment = ['.', '.'] then t.placeFrom links place.dropLast rest
    else
      match t.node? (place ++ [segment]), links with
      | some (.link target), links + 1 =>
        t.placeFrom links (if Path.isAbsolute target then [] else place)
          (Path.segments target ++ rest)
      | _, links => t.placeFrom links (place ++ [segment]) rest
termination_by segments => (links, segments.length)

/-- The place that relative paths, or absolute ones, start from. -/
def origin (t : Tree) (path : List Char) : Place :=
  if Path.isAbsolute path then [] else t.workingDirectory

/-- The place that a path leads to. -/
def placeOf (t : Tree) (path : List Char) : Place :=
  t.placeFrom linkLimit (t.origin path) (Path.segments path)

/-- The place that a path names: its last name, in the directory that the others
lead to. -/
def placeNamed (t : Tree) (path : List Char) : Place :=
  let segments := (Path.segments path).filter fun segment => segment ≠ [] ∧ segment ≠ ['.']
  match segments.getLast? with
  | none => t.origin path
  | some last =>
    if last = ['.', '.'] then t.placeOf path
    else t.placeFrom linkLimit (t.origin path) segments.dropLast ++ [last]

/-- The tree with a node where a path points.  A file is written over the file that
the path leads to; a link or a directory is only made where there is nothing. -/
def putPath (t : Tree) (path : List Char) (node : Node) : Tree :=
  let place :=
    match node with
    | .link _ => t.placeNamed path
    | _ => t.placeOf path
  match t.node? place, node with
  | none, _ => t.put place node
  | some (.file _), .file contents => t.put place (.file contents)
  | some _, _ => t

/-- The outcome of following components: an entry, or a link that was reached,
with the place that it is in and the components after it. -/
inductive Walk where
  | found (e : Entry)
  | atLink (place : Place) (target : List Char) (rest : List (List Char))

/-- Follows the segments of a path from a directory, up to the first link.  An
empty segment or a dot stands for the directory itself. -/
def walk (t : Tree) (place : Place) : List (List Char) → Walk
  | [] => .found .directory
  | segment :: rest =>
    if segment = [] ∨ segment = ['.'] then t.walk place rest
    else if segment = ['.', '.'] then t.walk place.dropLast rest
    else if nameLimit < (Text.Utf8.encode segment).length then .found (.absent .nameTooLong)
    else
      match t.node? (place ++ [segment]) with
      | none => .found (.absent .notFound)
      | some .directory => t.walk (place ++ [segment]) rest
      | some (.file contents) => .found (if rest = [] then .file contents else .absent .notADirectory)
      | some (.unreadable why) => .found (if rest = [] then .unreadable [] why else .absent .notADirectory)
      | some (.link target) => .atLink place target rest

/-- Looks up a path from a place, following at most `links` links. -/
def look (t : Tree) : (links : Nat) → Place → List (List Char) → Entry
  | links, place, segments =>
    match t.walk place segments, links with
    | .found e, _ => e
    | .atLink _ _ _, 0 => .absent .tooManyLinks
    | .atLink at' target rest, links + 1 =>
      t.look links (if Path.isAbsolute target then [] else at') (Path.segments target ++ rest)

/-- Why a path cannot be looked up at all. -/
def faultOfPath? (path : String) : Option Fault :=
  if path = "" then some .notFound
  else if '\x00' ∈ path.toList then some .nulInName
  else if pathLimit < (Text.bytes path).length then some .nameTooLong
  else none

/-- What a path leads to. -/
def entry (t : Tree) (path : String) : Entry :=
  match faultOfPath? path with
  | some why => .absent why
  | none => t.look linkLimit (t.origin path.toList) (Path.segments path.toList)

/-- Opens the file that segments lead to from a place to write on it, and gives what
is in it already.  A file that is not there is created. -/
def openFrom (t : Tree) (links : Nat) (place : Place) : List (List Char) → Except Fault Bytes
  | [] => .error .isADirectory
  | segment :: rest =>
    if segment = [] ∨ segment = ['.'] then t.openFrom links place rest
    else if segment = ['.', '.'] then t.openFrom links place.dropLast rest
    else if rest ≠ [] ∧ rest.all List.isEmpty then .error .isADirectory
    else if nameLimit < (Text.Utf8.encode segment).length then .error .nameTooLong
    else
      match t.node? (place ++ [segment]), links with
      | none, _ => if rest = [] then .ok [] else .error .notFound
      | some (.file contents), _ => if rest = [] then .ok contents else .error .notADirectory
      | some (.unreadable _), _ => if rest = [] then .ok [] else .error .notADirectory
      | some .directory, links => t.openFrom links (place ++ [segment]) rest
      | some (.link _), 0 => .error .tooManyLinks
      | some (.link target), links + 1 =>
        t.openFrom links (if Path.isAbsolute target then [] else place)
          (Path.segments target ++ rest)
termination_by segments => (links, segments.length)

/-- Opens the file of a path to write on it, and gives what is in it already. -/
def openToWrite (t : Tree) (path : String) : Except Fault Bytes :=
  match faultOfPath? path with
  | some why => .error why
  | none => t.openFrom linkLimit (t.origin path.toList) (Path.segments path.toList)

/-- The tree as a file system. -/
def fileSystem (t : Tree) : FileSystem := ⟨t.entry⟩

end Tree

end SiteServer.Files
