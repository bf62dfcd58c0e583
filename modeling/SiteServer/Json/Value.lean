import SiteServer.Dictionary
import SiteServer.Json.Literal

/-!
# JSON values

Values are trees; the members of an object are in ascending order of their
names, each name once.  A value is written in the compact form, without blanks.

`child?` goes one step down: to a member of an object by its exact name, or to
an element of an array by its position, written without leading zeros.
-/

namespace SiteServer

/-- A JSON value. -/
inductive Json where
  | null
  | bool (b : Bool)
  | number (n : Json.Number)
  | string (s : String)
  | array (items : List Json)
  | object (members : List (String × Json))

namespace Json

instance : Inhabited Json := ⟨null⟩

/-- The object with these members; of several with one name the last counts. -/
def ofMembers (members : List (String × Json)) : Json :=
  object (Dictionary.ofList members).entries

/-- The object whose members are strings. -/
def ofStrings (d : Dictionary String) : Json :=
  object (d.entries.map fun (name, value) => (name, string value))

/-! ## Going down -/

/-- Reads the position of an element: digits without a superfluous zero. -/
def position? (segment : List Char) : Option Nat :=
  if segment.length > 1 && segment.head? = some '0' then none else Text.digits? segment

/-- The member or element that a segment names. -/
def child? (value : Json) (segment : List Char) : Option Json :=
  match value with
  | object members => Dictionary.lookup (String.ofList segment) members
  | array items => (position? segment).bind fun i => items[i]?
  | _ => none

/-- The value that a path of segments leads to. -/
def descend? (value : Json) : List (List Char) → Option Json
  | [] => some value
  | segment :: rest => (value.child? segment).bind fun v => v.descend? rest

/-! ## Writing -/

/-- A character inside a string: quotes, backslashes and control characters are
escaped, and nothing else. -/
def escape (c : Char) : List Char :=
  if c = '"' then ['\\', '"']
  else if c = '\\' then ['\\', '\\']
  else if c = '\n' then ['\\', 'n']
  else if c = '\r' then ['\\', 'r']
  else if c = '\t' then ['\\', 't']
  else if c = '\x08' then ['\\', 'b']
  else if c = '\x0c' then ['\\', 'f']
  else if c.toNat < 0x20 then
    ['\\', 'u', '0', '0', Text.hexDigit (c.toNat / 16), Text.hexDigit (c.toNat % 16)]
  else [c]

/-- A string with its quotes. -/
def quoted (s : String) : List Char :=
  '"' :: s.toList.flatMap escape ++ ['"']

mutual

/-- The compact text of a value. -/
def write : Json → List Char
  | null => "null".toList
  | bool true => "true".toList
  | bool false => "false".toList
  | number n => n.write
  | string s => quoted s
  | array items => '[' :: writeItems items ++ [']']
  | object members => '\x7b' :: writeMembers members ++ ['\x7d']

/-- The texts of the elements of an array, with commas between them. -/
def writeItems : List Json → List Char
  | [] => []
  | [item] => write item
  | item :: rest => write item ++ ',' :: writeItems rest

/-- The texts of the members of an object, with commas between them. -/
def writeMembers : List (String × Json) → List Char
  | [] => []
  | [(name, value)] => quoted name ++ ':' :: write value
  | (name, value) :: rest => quoted name ++ ':' :: write value ++ ',' :: writeMembers rest

end

end Json

end SiteServer
