import SiteServer.Text.Blank

/-!
# Placeholders

A placeholder is a key between double braces, with any blanks around the key.  A
key is one or more segments with dots between them; a segment is one or more
ASCII letters, digits or underscores.

A template is read from left to right.  Where a placeholder stands it is taken
as a whole, and reading goes on after it; every other character is kept as it
is, single braces and broken placeholders included.
-/

namespace SiteServer.Template

/-- The characters of a segment. -/
def isSegmentChar (c : Char) : Bool :=
  c.isAlphanum || c = '_'

/-- The characters of a key. -/
def isKeyChar (c : Char) : Bool :=
  isSegmentChar c || c = '.'

/-- The segments of a key. -/
def segments (key : List Char) : List (List Char) :=
  Text.pieces (· = '.') key

/-- Whether a run of key characters is a key: no segment of it is empty. -/
def isKey (run : List Char) : Bool :=
  (segments run).all (!·.isEmpty)

/-- The placeholder that a text starts with, if it does: its key, and the number
of its characters. -/
def placeholder? : List Char → Option (List Char × Nat)
  | '\x7b' :: '\x7b' :: rest =>
    let inner := rest.dropWhile Text.isBlank
    let key := inner.takeWhile isKeyChar
    let tail := inner.dropWhile isKeyChar
    match tail.dropWhile Text.isBlank with
    | '\x7d' :: '\x7d' :: _ =>
      if isKey key then
        some (key, 4 + (rest.takeWhile Text.isBlank).length + key.length +
          (tail.takeWhile Text.isBlank).length)
      else none
    | _ => none
  | _ => none

/-- A part of a template. -/
inductive Part where
  | char (c : Char)
  | hole (key : List Char)
deriving DecidableEq, Repr

/-- The parts of a text, of which the first `skip` characters were taken
already. -/
def partsFrom (skip : Nat) : List Char → List Part
  | [] => []
  | c :: rest =>
    match skip with
    | skip + 1 => partsFrom skip rest
    | 0 =>
      match placeholder? (c :: rest) with
      | some (key, n) => .hole key :: partsFrom (n - 1) rest
      | none => .char c :: partsFrom 0 rest

/-- The parts of a template. -/
def parts (source : List Char) : List Part :=
  partsFrom 0 source

end SiteServer.Template
