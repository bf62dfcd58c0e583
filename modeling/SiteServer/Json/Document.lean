import SiteServer.Json.Value

/-!
# JSON documents

A document is the text of one JSON value.  It is read in two passes, each of
which looks at one element at a time: the characters are gathered into tokens,
and the tokens are folded over a stack of the arrays and objects that are open.
Neither pass depends on how deep the document nests.

What comes out keeps numbers as they are written and members in their order,
with repetitions.  A string that names half of a surrogate pair has no text; a
reader that skips it need not mind, one that wants its value must refuse it.
-/

namespace SiteServer.Json

/-- A value as a document writes it. -/
inductive Document where
  | null
  | bool (b : Bool)
  | number (l : Literal)
  | string (text : Option String)
  | array (items : List Document)
  | object (members : List (Option String × Document))

/-! ## Tokens -/

/-- The smallest meaningful parts of a document. -/
inductive Token where
  | openList | closeList | openObject | closeObject | comma | colon
  | null
  | bool (b : Bool)
  | number (l : Literal)
  | string (text : Option String)
deriving DecidableEq

/-- A string that is being read: its characters so far, last first, the first
half of a surrogate pair that waits for the second, and whether all is text. -/
structure Spelling where
  reversed : List Char := []
  half : Option Nat := none
  sound : Bool := true

namespace Spelling

/-- Adds a character. -/
def push (s : Spelling) (c : Char) : Spelling :=
  ⟨c :: s.reversed, none, s.sound && s.half.isNone⟩

/-- Adds a code unit that was written in hexadecimal. -/
def pushUnit (s : Spelling) (u : Nat) : Spelling :=
  match s.half with
  | some high =>
    if 0xDC00 ≤ u ∧ u < 0xE000 then
      { s with
        reversed := Char.ofNat (0x10000 + (high - 0xD800) * 0x400 + (u - 0xDC00)) :: s.reversed
        half := none }
    else { s with half := none, sound := false }
  | none =>
    if 0xD800 ≤ u ∧ u < 0xDC00 then { s with half := some u }
    else if 0xDC00 ≤ u ∧ u < 0xE000 then { s with sound := false }
    else s.push (Char.ofNat u)

/-- The text of the whole string, if it has one. -/
def finish (s : Spelling) : Option String :=
  if s.sound && s.half.isNone then some (String.ofList s.reversed.reverse) else none

end Spelling

/-- Where a reader of characters stands. -/
inductive LexState where
  /-- Between tokens. -/
  | outside
  /-- In a string. -/
  | inString (s : Spelling)
  /-- After a backslash in a string. -/
  | escaped (s : Spelling)
  /-- In a hexadecimal escape, with the digits that are owed and the value. -/
  | unit (s : Spelling) (owed value : Nat)
  /-- In a number, with its characters last first. -/
  | inNumber (reversed : List Char)
  /-- In a word, with its characters last first. -/
  | inWord (reversed : List Char)

/-- The character that a one-letter escape stands for. -/
def escapeValue? (c : Char) : Option Char :=
  if c = '"' ∨ c = '\\' ∨ c = '/' then some c
  else if c = 'n' then some '\n'
  else if c = 'r' then some '\r'
  else if c = 't' then some '\t'
  else if c = 'b' then some '\x08'
  else if c = 'f' then some '\x0c'
  else none

/-- The token of a word. -/
def wordToken? (reversed : List Char) : Option Token :=
  let word := reversed.reverse
  if word = "null".toList then some .null
  else if word = "true".toList then some (.bool true)
  else if word = "false".toList then some (.bool false)
  else none

/-- The token of a mark. -/
def markToken? (c : Char) : Option Token :=
  if c = '[' then some .openList
  else if c = ']' then some .closeList
  else if c = '\x7b' then some .openObject
  else if c = '\x7d' then some .closeObject
  else if c = ',' then some .comma
  else if c = ':' then some .colon
  else none

/-- Whether a character can stand in a number. -/
def isNumberChar (c : Char) : Bool :=
  c.isDigit || c = '-' || c = '+' || c = '.' || c = 'e' || c = 'E'

/-- The effect of a character between tokens: the token it is, if it is one, and
the state after it. -/
def lexOutside (c : Char) : Option (List Token × LexState) :=
  if c = ' ' || c = '\n' || c = '\r' || c = '\t' then some ([], .outside)
  else if c = '"' then some ([], .inString {})
  else if c.isDigit || c = '-' then some ([], .inNumber [c])
  else if c.isAlpha then some ([], .inWord [c])
  else (markToken? c).map fun t => ([t], .outside)

/-- The effect of a character: the tokens it completes and the state after it. -/
def lexStep : LexState → Char → Option (List Token × LexState)
  | .outside, c => lexOutside c
  | .inString s, c =>
    if c = '"' then some ([.string s.finish], .outside)
    else if c = '\\' then some ([], .escaped s)
    else if c.toNat < 0x20 then none
    else some ([], .inString (s.push c))
  | .escaped s, c =>
    if c = 'u' then some ([], .unit s 4 0)
    else (escapeValue? c).map fun v => ([], .inString (s.push v))
  | .unit s owed value, c =>
    (Text.hexValue? c).map fun d =>
      let value := value * 16 + d
      if owed ≤ 1 then ([], .inString (s.pushUnit value)) else ([], .unit s (owed - 1) value)
  | .inNumber reversed, c =>
    if isNumberChar c then some ([], .inNumber (c :: reversed))
    else do
      let l ← Literal.parse? reversed.reverse
      let (ts, state) ← lexOutside c
      return (.number l :: ts, state)
  | .inWord reversed, c =>
    if c.isAlpha then some ([], .inWord (c :: reversed))
    else do
      let t ← wordToken? reversed
      let (ts, state) ← lexOutside c
      return (t :: ts, state)

/-- The tokens that the end of the text completes. -/
def lexEnd : LexState → Option (List Token)
  | .outside => some []
  | .inNumber reversed => (Literal.parse? reversed.reverse).map fun l => [.number l]
  | .inWord reversed => (wordToken? reversed).map fun t => [t]
  | _ => none

/-- The tokens of a text from a state. -/
def tokensFrom (state : LexState) : List Char → Option (List Token)
  | [] => lexEnd state
  | c :: rest =>
    match lexStep state c with
    | none => none
    | some ([], state) => tokensFrom state rest
    | some (ts, state) => (tokensFrom state rest).map (ts ++ ·)

/-- The tokens of a text. -/
def tokens? (text : List Char) : Option (List Token) :=
  tokensFrom .outside text

/-! ## The tree -/

/-- An array or an object that is open, with what it holds so far, last first. -/
inductive Frame where
  | list (items : List Document)
  | member (members : List (Option String × Document)) (name : Option String)

/-- Where a reader of tokens stands. -/
inductive ReadState where
  /-- A value must follow. -/
  | value (stack : List Frame)
  /-- A value or the end of the array must follow. -/
  | firstItem (stack : List Frame)
  /-- A name or the end of the object must follow. -/
  | firstName (stack : List Frame)
  /-- A name must follow. -/
  | name (members : List (Option String × Document)) (stack : List Frame)
  /-- A colon must follow the name. -/
  | colon (members : List (Option String × Document)) (name : Option String) (stack : List Frame)
  /-- A comma or the end of the array must follow. -/
  | afterItem (items : List Document) (stack : List Frame)
  /-- A comma or the end of the object must follow. -/
  | afterMember (members : List (Option String × Document)) (stack : List Frame)
  /-- Nothing may follow. -/
  | finished (d : Document)

/-- Puts a complete value where it belongs. -/
def ReadState.complete (d : Document) : List Frame → ReadState
  | [] => .finished d
  | .list items :: stack => .afterItem (d :: items) stack
  | .member members key :: stack => .afterMember ((key, d) :: members) stack

/-- The state after the first token of a value. -/
def ReadState.begin (stack : List Frame) : Token → Option ReadState
  | .openList => some (.firstItem stack)
  | .openObject => some (.firstName stack)
  | .null => some (.complete .null stack)
  | .bool b => some (.complete (.bool b) stack)
  | .number l => some (.complete (.number l) stack)
  | .string text => some (.complete (.string text) stack)
  | _ => none

/-- The state after a token; `none` if the token cannot stand there. -/
def ReadState.step : ReadState → Token → Option ReadState
  | .value stack, t => begin stack t
  | .firstItem stack, .closeList => some (.complete (.array []) stack)
  | .firstItem stack, t => begin (.list [] :: stack) t
  | .firstName stack, .closeObject => some (.complete (.object []) stack)
  | .firstName stack, .string key => some (.colon [] key stack)
  | .name members stack, .string key => some (.colon members key stack)
  | .colon members key stack, .colon => some (.value (.member members key :: stack))
  | .afterItem items stack, .comma => some (.value (.list items :: stack))
  | .afterItem items stack, .closeList => some (.complete (.array items.reverse) stack)
  | .afterMember members stack, .comma => some (.name members stack)
  | .afterMember members stack, .closeObject =>
    some (.complete (.object members.reverse) stack)
  | _, _ => none

/-- Reads a document. -/
def Document.parse? (text : List Char) : Option Document := do
  match ← (← tokens? text).foldlM ReadState.step (.value []) with
  | .finished d => some d
  | _ => none

/-! ## Values of documents -/

mutual

/-- The value of a document, if all its strings have texts and all its numbers
have values. -/
def Document.value? : Document → Option Json
  | .null => some .null
  | .bool b => some (.bool b)
  | .number l => (Number.ofLiteral? l).map .number
  | .string text => text.map .string
  | .array items => (values? items).map .array
  | .object members => (memberValues? members).map .ofMembers

/-- The values of the elements of an array. -/
def values? : List Document → Option (List Json)
  | [] => some []
  | d :: rest => do return (← d.value?) :: (← values? rest)

/-- The members of an object with their values. -/
def memberValues? : List (Option String × Document) → Option (List (String × Json))
  | [] => some []
  | (name, d) :: rest => do return (← name, ← d.value?) :: (← memberValues? rest)

end

/-- Reads the value that a text writes. -/
def parse? (text : String) : Option Json :=
  (Document.parse? text.toList).bind Document.value?

end SiteServer.Json
